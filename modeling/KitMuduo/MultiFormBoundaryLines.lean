import KitMuduo.MultiFormLoop

/-!
# Complete boundary lines

Which occurrences of LF and `--B` split the body.  The loop looks at one byte
behind an occurrence, where the documentation of `skip_boundary_suffix` asks for
a whole line: optional blanks, maybe two dashes and more blanks, and the end of
the line or of the input.
-/

namespace KitMuduo

open ListSearch

namespace MultiFormParser

/-- CRLF, LF or the end of the input, and what follows. -/
inductive LineEnd : Bytes → Bytes → Prop
  | input : LineEnd [] []
  | lf (rest : Bytes) : LineEnd (lf :: rest) rest
  | crlf (rest : Bytes) : LineEnd (cr :: lf :: rest) rest

/-- What may stand behind a boundary, the rest of the body, and whether the
boundary is the closing one. -/
inductive BoundarySuffix : Bytes → Bytes → Bool → Prop
  | inner {blanks p rest : Bytes} :
      (∀ c ∈ blanks, isLwsp c = true) → LineEnd p rest →
      BoundarySuffix (blanks ++ p) rest false
  | closing {blanks moreBlanks p rest : Bytes} :
      (∀ c ∈ blanks, isLwsp c = true) →
      (∀ c ∈ moreBlanks, isLwsp c = true) → LineEnd p rest →
      BoundarySuffix (blanks ++ 45 :: 45 :: (moreBlanks ++ p)) rest true

/-- A complete boundary line begins here. -/
def BoundaryLine (marker text : Bytes) : Prop :=
  ∃ behind rest closing, text = marker ++ behind ∧
    BoundarySuffix behind rest closing

/-- The first complete boundary line of the body: the piece in front of it and
the body behind it. -/
def FirstLine (marker p piece rest : Bytes) (closing : Bool) : Prop :=
  ∃ behind, p = piece ++ (marker ++ behind) ∧
    BoundarySuffix behind rest closing ∧
    Clear (BoundaryLine marker) piece (marker ++ behind)

/-- The body is divided at its complete boundary lines, up to the closing
one. -/
inductive Documented (marker : Bytes) : Bytes → List Bytes → Prop
  | none {p : Bytes} : Clear (BoundaryLine marker) p [] →
      Documented marker p []
  | inner {p piece rest : Bytes} {pieces : List Bytes} :
      FirstLine marker p piece rest false → Documented marker rest pieces →
      Documented marker p (piece :: pieces)
  | closing {p piece rest : Bytes} :
      FirstLine marker p piece rest true → Documented marker p [piece]

/-- The body itself, and what stands behind its boundary lines one after the
other. -/
inductive Behind (marker : Bytes) : Bytes → Bytes → Prop
  | refl (p : Bytes) : Behind marker p p
  | step {p piece rest q : Bytes} :
      FirstLine marker p piece rest false → Behind marker rest q →
      Behind marker p q

/-- The pieces the loop takes for parts. -/
def pieces (bstr p : Bytes) : List Bytes :=
  if p = [] then
    []
  else
    match nextBoundary (lf :: bstr) p with
    | none => []
    | some next =>
        let line := skipBoundarySuffix (p.drop (next + bstr.length + 1))
        p.take next :: if line.2 = true then [] else pieces bstr line.1
  termination_by p.length
  decreasing_by
    next nonempty _ =>
      have behind := (skipBoundarySuffix_suffix
        (p.drop (next + bstr.length + 1))).length_le
      rw [List.length_drop] at behind
      have positive := List.length_pos_of_ne_nil nonempty
      omega

variable {bstr p : Bytes}

/-- The loop reads the pieces and stores what it has read. -/
theorem parseParts_eq_foldl (bstr p : Bytes) (map : PartMap) :
    parseParts bstr p map = (pieces bstr p).foldl
      (fun map piece => storePart map (parsePart (dropCr piece))) map := by
  induction p using pieces.induct bstr generalizing map with
  | case1 => rw [parseParts, pieces, if_pos rfl, if_pos rfl, List.foldl_nil]
  | case2 p nonempty none =>
      rw [parseParts, pieces, if_neg nonempty, if_neg nonempty, none]
      rfl
  | case3 p nonempty next found line ih =>
      rw [parseParts, pieces, if_neg nonempty, if_neg nonempty, found]
      dsimp only
      rw [List.foldl_cons]
      split
      · rfl
      · exact ih _

/-! ## Complete lines -/

theorem LineEnd.skipCrlf {p rest : Bytes} (lineEnd : LineEnd p rest) :
    skipCrlf p = rest := by
  cases lineEnd with
  | input => rfl
  | lf rest => rfl
  | crlf rest => rfl

theorem LineEnd.dropWhile {p rest : Bytes} (lineEnd : LineEnd p rest) :
    p.dropWhile isLwsp = p := by
  cases lineEnd with
  | input => rfl
  | lf rest => rfl
  | crlf rest => rfl

theorem dropWhile_blanks {blanks p : Bytes}
    (each : ∀ c ∈ blanks, isLwsp c = true) :
    (blanks ++ p).dropWhile isLwsp = p.dropWhile isLwsp := by
  induction blanks with
  | nil => rfl
  | cons c blanks ih =>
      rw [List.forall_mem_cons] at each
      rw [List.cons_append, List.dropWhile_cons_of_pos each.1, ih each.2]

/-- The suffix skipper goes to the end of a complete line. -/
theorem BoundarySuffix.skip {behind rest : Bytes} {closing : Bool}
    (suffix : BoundarySuffix behind rest closing) :
    skipBoundarySuffix behind = (rest, closing) := by
  cases suffix with
  | inner blanks lineEnd =>
      rw [skipBoundarySuffix, dropWhile_blanks blanks, lineEnd.dropWhile]
      cases lineEnd with
      | input => rfl
      | lf rest => rfl
      | crlf rest => rfl
  | closing blanks moreBlanks lineEnd =>
      have dashes (p : Bytes) : (45 :: 45 :: p : Bytes).dropWhile isLwsp =
          45 :: 45 :: p := rfl
      rw [skipBoundarySuffix, dropWhile_blanks blanks, dashes]
      refine Prod.ext ?_ rfl
      change skipCrlf (List.dropWhile isLwsp (_ ++ _)) = rest
      rw [dropWhile_blanks moreBlanks, lineEnd.dropWhile, lineEnd.skipCrlf]

theorem isValidBoundarySuffixChar_of_isLwsp {c : UInt8}
    (blank : isLwsp c = true) : isValidBoundarySuffixChar c = true := by
  simp only [isLwsp, decide_eq_true_eq] at blank
  simp only [isValidBoundarySuffixChar, decide_eq_true_eq]
  exact .inr (.inr (.inr blank))

/-- The look-ahead accepts complete lines. -/
theorem BoundarySuffix.mayFollow {behind rest : Bytes} {closing : Bool}
    (suffix : BoundarySuffix behind rest closing) :
    mayFollowBoundary behind = true := by
  cases suffix with
  | @inner blanks p rest each lineEnd =>
      cases blanks with
      | nil =>
          cases lineEnd with
          | input => rfl
          | lf rest => rfl
          | crlf rest => rfl
      | cons c blanks =>
          exact isValidBoundarySuffixChar_of_isLwsp (each c List.mem_cons_self)
  | @closing blanks moreBlanks p rest each moreEach lineEnd =>
      cases blanks with
      | nil => rfl
      | cons c blanks =>
          exact isValidBoundarySuffixChar_of_isLwsp (each c List.mem_cons_self)

theorem BoundaryLine.isBoundary {marker text : Bytes}
    (line : BoundaryLine marker text) : IsBoundary marker text := by
  obtain ⟨behind, rest, closing, rfl, suffix⟩ := line
  refine ⟨List.prefix_append _ _, ?_⟩
  rw [List.drop_left]
  exact suffix.mayFollow

/-! ## The first complete line -/

variable {marker piece other rest otherRest : Bytes}
  {closing otherClosing : Bool}

theorem FirstLine.isFirst (first : FirstLine marker p piece rest closing) :
    IsFirst (BoundaryLine marker) p piece.length := by
  obtain ⟨behind, rfl, suffix, clear⟩ := first
  exact isFirst_of_clear clear ⟨behind, rest, closing, rfl, suffix⟩

/-- There is only one. -/
theorem FirstLine.unique (first : FirstLine marker p piece rest closing)
    (second : FirstLine marker p other otherRest otherClosing) :
    rest = otherRest ∧ closing = otherClosing := by
  have same := first.isFirst.unique second.isFirst
  obtain ⟨behind, rfl, suffix, _⟩ := first
  obtain ⟨otherBehind, split, otherSuffix, _⟩ := second
  obtain ⟨_, texts⟩ := List.append_inj split same
  rw [List.append_cancel_left texts] at suffix
  have skipped := suffix.skip.symm.trans otherSuffix.skip
  exact Prod.mk.inj skipped

/-- Before the first complete line the look-ahead accepts nothing else. -/
def AllComplete (marker q : Bytes) : Prop :=
  ∀ front rest, q = front ++ rest → Clear (BoundaryLine marker) front rest →
    IsBoundary marker rest → BoundaryLine marker rest

theorem not_isBoundary_of_none (none : nextBoundary marker p = none)
    {front rest : Bytes} (split : p = front ++ rest) :
    ¬ IsBoundary marker rest := by
  have never := nextBoundary_eq_none_iff.mp none front.length (by simp [split])
  rwa [split, List.drop_left] at never

theorem nextBoundary_nil (bstr : Bytes) :
    nextBoundary (lf :: bstr) [] = none := by
  refine nextBoundary_eq_none_iff.mpr fun next _ isBoundary => ?_
  rw [List.drop_nil] at isBoundary
  exact List.cons_ne_nil _ _ (List.prefix_nil.mp isBoundary.1)

/-- Where the look-ahead accepts nothing, nothing is to be split. -/
theorem documented_of_none (none : nextBoundary marker p = none) :
    Documented marker p [] ∧ ∀ q, Behind marker p q → AllComplete marker q := by
  constructor
  · refine .none (clear_iff.mpr fun earlier _ line => ?_)
    rw [List.append_nil] at line
    exact not_isBoundary_of_none none (List.take_append_drop earlier p).symm
      line.isBoundary
  · intro q behind
    cases behind with
    | refl => exact fun front rest split _ isBoundary =>
        absurd isBoundary (not_isBoundary_of_none none split)
    | step first _ =>
        obtain ⟨text, split, suffix, _⟩ := first
        have line : BoundaryLine marker (marker ++ text) :=
          ⟨text, _, _, rfl, suffix⟩
        exact absurd line.isBoundary (not_isBoundary_of_none none split)

/-- A turn of the loop: what the look-ahead accepts first begins behind the
piece. -/
theorem found_split {next : Nat} (found : nextBoundary marker p = some next) :
    p = p.take next ++ p.drop next ∧ IsBoundary marker (p.drop next) ∧
      Clear (IsBoundary marker) (p.take next) (p.drop next) := by
  obtain ⟨within, isBoundary, least⟩ := nextBoundary_eq_some_iff.mp found
  have split := (List.take_append_drop next p).symm
  refine ⟨split, isBoundary, ?_⟩
  rw [clear_iff, List.length_take_of_le within, ← split]
  exact least

/-- If the first complete line is the first thing accepted, all is complete up
to it. -/
theorem allComplete_of_firstLine {next : Nat}
    (found : nextBoundary marker p = some next)
    (first : FirstLine marker p (p.take next) rest closing) :
    AllComplete marker p := by
  obtain ⟨within, _, least⟩ := nextBoundary_eq_some_iff.mp found
  have line := first.isFirst.2.1
  rw [List.length_take_of_le within] at line
  intro front text split clear isBoundary
  have here : text = p.drop front.length := by
    rw [split, List.drop_left]
  have notBefore : next ≤ front.length := by
    by_contra early
    exact least front.length (by omega) (here ▸ isBoundary)
  have notAfter : front.length ≤ next := by
    by_contra late
    apply clear_iff.mp clear next (by omega)
    rw [← split]
    exact line
  rw [here, Nat.le_antisymm notAfter notBefore]
  exact line

/-- The pieces are the documented ones exactly if in the body and behind each of
its boundary lines the look-ahead accepts no occurrence that is not complete. -/
theorem documented_pieces_iff (bstr p : Bytes) :
    Documented (lf :: bstr) p (pieces bstr p) ↔
      ∀ q, Behind (lf :: bstr) p q → AllComplete (lf :: bstr) q := by
  induction p using pieces.induct bstr with
  | case1 =>
      have both := documented_of_none (nextBoundary_nil bstr)
      rw [pieces, if_pos rfl]
      exact iff_of_true both.1 both.2
  | case2 p nonempty none =>
      have both := documented_of_none none
      rw [pieces, if_neg nonempty, none]
      exact iff_of_true both.1 both.2
  | case3 p nonempty next found line ih =>
      obtain ⟨split, isBoundary, clear⟩ := found_split found
      -- A complete line behind the piece is the line the loop skips.
      have skips : ∀ {rest : Bytes} {closing : Bool},
          FirstLine (lf :: bstr) p (p.take next) rest closing →
            line = (rest, closing) := by
        rintro rest closing ⟨behind, whole, suffix, _⟩
        have text : p.drop next = lf :: bstr ++ behind :=
          List.append_cancel_left (split.symm.trans whole)
        have after : p.drop (next + bstr.length + 1) = behind := by
          rw [Nat.add_assoc, ← List.drop_drop, text, ← List.length_cons,
            List.drop_left]
        simp only [line, after, suffix.skip]
      rw [pieces, if_neg nonempty, found]
      change Documented (lf :: bstr) p (p.take next ::
        if line.2 = true then [] else pieces bstr line.1) ↔ _
      generalize tailHere : (if line.2 = true then [] else pieces bstr line.1) =
        tail
      constructor
      · intro documented
        cases documented with
        | @inner _ _ rest _ first later =>
            have skipped := skips first
            rw [skipped, if_neg Bool.false_ne_true] at tailHere
            subst tailHere
            rw [skipped] at ih
            intro q behind
            cases behind with
            | refl => exact allComplete_of_firstLine found first
            | step other later' =>
                obtain ⟨rfl, _⟩ := first.unique other
                exact ih.mp later q later'
        | closing first =>
            intro q behind
            cases behind with
            | refl => exact allComplete_of_firstLine found first
            | step other _ => cases (first.unique other).2
      · intro complete
        obtain ⟨behind, rest, closing, text, suffix⟩ := complete p (.refl p) _ _
          split (clear.mono fun _ line => line.isBoundary) isBoundary
        have first : FirstLine (lf :: bstr) p (p.take next) rest closing := by
          refine ⟨behind, text ▸ split, suffix, ?_⟩
          rw [← text]
          exact clear.mono fun _ line => line.isBoundary
        have skipped := skips first
        rw [skipped] at tailHere ih
        subst tailHere
        cases closing with
        | true => exact .closing first
        | false =>
            exact .inner first (ih.mpr fun q later =>
              complete q (.step first later))

/-- The parser splits the body where it is documented to, exactly under the same
condition. -/
theorem split_documented_iff (boundary p : Bytes) :
    (∀ map, parseParts (delimiter boundary) p map =
      (pieces (delimiter boundary) p).foldl
        (fun map piece => storePart map (parsePart (dropCr piece))) map) ∧
      (Documented (lf :: delimiter boundary) p (pieces (delimiter boundary) p) ↔
        ∀ q, Behind (lf :: delimiter boundary) p q →
          AllComplete (lf :: delimiter boundary) q) :=
  ⟨parseParts_eq_foldl (delimiter boundary) p,
    documented_pieces_iff (delimiter boundary) p⟩

/-- A single dash and a letter are no end of a boundary line. -/
theorem not_boundarySuffix_dash (rest : Bytes) (closing : Bool) :
    ¬ BoundarySuffix (ascii "-x") rest closing := by
  have text : ascii "-x" = [45, 120] := by decide
  rw [text]
  generalize same : ([45, 120] : Bytes) = behind
  intro suffix
  cases suffix with
  | @inner blanks p _ each lineEnd =>
      cases blanks with
      | nil =>
          rw [List.nil_append] at same
          rw [← same] at lineEnd
          cases lineEnd
      | cons c blanks =>
          have blank := each c List.mem_cons_self
          rw [← (List.cons.inj same).1] at blank
          exact absurd blank (by decide)
  | @closing blanks moreBlanks p _ each _ _ =>
      cases blanks with
      | nil => exact absurd (List.cons.inj (List.cons.inj same).2).1 (by decide)
      | cons c blanks =>
          have blank := each c List.mem_cons_self
          rw [← (List.cons.inj same).1] at blank
          exact absurd blank (by decide)

/-- A line that begins with the boundary and a dash ends a part. -/
theorem not_split_documented :
    ¬ ∀ boundary p : Bytes,
      Documented (lf :: delimiter boundary) p
        (pieces (delimiter boundary) p) := by
  intro always
  let marker := lf :: delimiter (ascii "B")
  have documented := always (ascii "B") (97 :: (marker ++ ascii "-x"))
  have complete := (documented_pieces_iff _ _).mp documented _ (.refl _)
  have notHere : ¬ BoundaryLine marker (marker ++ ascii "-x") := by
    rintro ⟨behind, rest, closing, text, suffix⟩
    rw [← List.append_cancel_left text] at suffix
    exact not_boundarySuffix_dash rest closing suffix
  refine notHere (complete [97] _ rfl ⟨?_, trivial⟩
    ⟨List.prefix_append _ _, by decide⟩)
  rintro ⟨behind, rest, closing, text, _⟩
  exact absurd (List.cons.inj text).1 (by decide)

end MultiFormParser

end KitMuduo
