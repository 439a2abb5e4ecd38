import KitMuduo.MultiFormPointers

/-!
# Where the data of the parts come from

What every turn of the outer loop keeps: the pointer is inside of the input, and
the data of the parts so far were copied from ranges in front of it, one behind
the other, in none of which a boundary begins.
-/

namespace KitMuduo

open CheckedLoop ListSearch ListSegment

namespace MultiFormPointers

open MultiFormParser (lf storePart extractBoundary)

variable {bytes : Bytes} {p turns : Nat}

/-- The data of the parts come from ranges of the input, one behind the other,
in none of which a boundary begins. -/
structure WellPlaced (bytes marker : Bytes) (placed : List PlacedPart) :
    Prop where
  subrange : ∀ part ∈ placed, part.first ≤ part.last ∧
    part.last ≤ bytes.length ∧
    part.part.data = segment bytes part.first (part.last - part.first)
  ordered : placed.Pairwise fun earlier later => earlier.last ≤ later.first
  separated : ∀ part ∈ placed, ∀ position, part.first ≤ position →
    position < part.last → ¬ MultiFormParser.IsBoundary marker
      (bytes.drop position)

/-- What every turn of the outer loop keeps. -/
structure PartLoop.Good (bytes marker : Bytes) (s : PartLoop) : Prop where
  within : s.p ≤ bytes.length
  placed : WellPlaced bytes marker s.placed
  behind : ∀ part ∈ s.placed, part.last ≤ s.p
  stored : s.parts = (s.placed.map PlacedPart.part).foldl storePart ∅

variable {marker bstr : Bytes} {s : PartLoop}

theorem PartLoop.good_init (within : p ≤ bytes.length) :
    PartLoop.Good bytes marker { p := p } where
  within := within
  placed := ⟨by simp, .nil, by simp⟩
  behind := by simp
  stored := rfl

/-- A part from the bytes between the pointer and the next boundary. -/
theorem PartLoop.Good.store {q : Nat} {part : PlacedPart}
    (good : s.Good bytes marker) (fromPointer : s.p ≤ part.first)
    (ordered : part.first ≤ part.last) (before : part.last ≤ q)
    (within : q ≤ bytes.length)
    (data : part.part.data =
      segment bytes part.first (part.last - part.first))
    (clear : ∀ position, s.p ≤ position → position < part.last →
      ¬ MultiFormParser.IsBoundary marker (bytes.drop position)) :
    PartLoop.Good bytes marker { s.store part with p := q } where
  within := within
  placed := by
    refine ⟨?_, ?_, ?_⟩
    · intro other member
      rcases List.mem_append.mp member with earlier | here
      · exact good.placed.subrange other earlier
      · rw [List.mem_singleton.mp here]
        exact ⟨ordered, before.trans within, data⟩
    · refine List.pairwise_append.mpr
        ⟨good.placed.ordered, List.pairwise_singleton _ _, ?_⟩
      intro earlier member later here
      rw [List.mem_singleton.mp here]
      exact (good.behind earlier member).trans fromPointer
    · intro other member position fromFirst beforeLast
      rcases List.mem_append.mp member with earlier | here
      · exact good.placed.separated other earlier position fromFirst beforeLast
      · rw [List.mem_singleton.mp here] at fromFirst beforeLast
        exact clear position (fromPointer.trans fromFirst) beforeLast
  behind := by
    intro other member
    rcases List.mem_append.mp member with earlier | here
    · have behind := good.behind other earlier
      change other.last ≤ q
      omega
    · rw [List.mem_singleton.mp here]
      exact before
  stored := by
    change storePart s.parts part.part =
      ((s.placed ++ [part]).map PlacedPart.part).foldl storePart ∅
    rw [List.map_append, List.foldl_append, ← good.stored]
    rfl

/-- The turn of the loop over lists. -/
theorem parseParts_of_next {distance stop : Nat} (parts : PartMap)
    (inside : p < bytes.length)
    (next : MultiFormParser.nextBoundary (lf :: bstr) (bytes.drop p) =
      some distance)
    (body : MultiFormParser.dropCr (segment bytes p (p + distance - p)) =
      segment bytes p (stop - p)) :
    let line := MultiFormParser.skipBoundarySuffix
      (bytes.drop (p + distance + (bstr.length + 1)))
    let stored := storePart parts
      (MultiFormParser.parsePart (segment bytes p (stop - p)))
    MultiFormParser.parseParts bstr (bytes.drop p) parts =
      if line.2 = true then
        stored
      else
        MultiFormParser.parseParts bstr line.1 stored := by
  intro line stored
  have nonempty : bytes.drop p ≠ [] := by
    rw [Ne, List.drop_eq_nil_iff]
    omega
  have piece : (bytes.drop p).take distance =
      segment bytes p (p + distance - p) := by
    rw [ListSegment.segment, Nat.add_sub_cancel_left]
  have after : (bytes.drop p).drop (distance + bstr.length + 1) =
      bytes.drop (p + distance + (bstr.length + 1)) := by
    rw [List.drop_drop]
    congr 1
    omega
  rw [MultiFormParser.parseParts, if_neg nonempty, next]
  dsimp only
  rw [piece, body, after]

theorem partTurn_well (enough : bytes.length < turns)
    (good : s.Good bytes (lf :: bstr)) :
    TurnsWell (partTurn turns bytes bstr) (PartLoop.Good bytes (lf :: bstr))
      (fun s => bytes.length - s.p) (fun s final =>
        final.Good bytes (lf :: bstr) ∧
          final.parts =
            MultiFormParser.parseParts bstr (bytes.drop s.p) s.parts) s := by
  by_cases inside : s.p < bytes.length
  · have found := nextBoundary_eq (List.cons_ne_nil lf bstr) enough good.within
    cases next : MultiFormParser.nextBoundary (lf :: bstr) (bytes.drop s.p) with
    | none =>
        rw [boundaryFrom, next, Option.map_none] at found
        refine .inr ⟨s, ?_, good,
          (MultiFormParser.parseParts_of_none next).symm⟩
        simp [partTurn, inside, found]
    | some distance =>
        obtain ⟨_, here, least⟩ :=
          MultiFormParser.nextBoundary_eq_some_iff.mp next
        have fits := here.1.length_le
        rw [List.drop_drop, List.length_drop, List.length_cons] at fits
        rw [boundaryFrom, next, Option.map_some] at found
        obtain ⟨stop, stopped, fromPointer, upToNext, body⟩ :=
          bodyEnd_eq (Nat.le_add_right s.p distance)
            (by omega : s.p + distance ≤ bytes.length)
        obtain ⟨bodyStart, parsed, behind, ordered, data⟩ :=
          parsePart_eq fromPointer (by omega : stop ≤ bytes.length)
        obtain ⟨q, skipped, moves⟩ := skipBoundarySuffix_moves enough
          (by omega : s.p + distance + (bstr.length + 1) ≤ bytes.length)
        have forward := moves.forward
        have clear : ∀ position, s.p ≤ position → position < stop →
            ¬ MultiFormParser.IsBoundary (lf :: bstr)
              (bytes.drop position) := by
          intro position fromP beforeStop isBoundary
          apply least (position - s.p) (by omega)
          rw [List.drop_drop, Nat.add_sub_of_le fromP]
          exact isBoundary
        have kept : PartLoop.Good bytes (lf :: bstr)
            { s.store ⟨MultiFormParser.parsePart
                (segment bytes s.p (stop - s.p)), bodyStart, stop⟩ with
              p := q } :=
          good.store behind ordered (by omega : stop ≤ q) moves.within data
            clear
        have turn := parseParts_of_next s.parts inside next body
        dsimp only at turn
        rw [← moves.behind] at turn
        cases isFinal : (MultiFormParser.skipBoundarySuffix (bytes.drop
            (s.p + distance + (bstr.length + 1)))).2 with
        | true =>
            rw [isFinal] at skipped
            rw [isFinal, if_pos rfl] at turn
            refine .inr ⟨_, ?_, kept, turn.symm⟩
            simp [partTurn, inside, found, stopped, parsed, skipped]
        | false =>
            rw [isFinal] at skipped
            rw [isFinal, if_neg Bool.false_ne_true] at turn
            refine .inl ⟨_, ?_, kept, ?_, ?_⟩
            · simp [partTurn, inside, found, stopped, parsed, skipped]
            · change bytes.length - q < bytes.length - s.p
              omega
            · rintro final ⟨goodFinal, parts⟩
              exact ⟨goodFinal, parts.trans turn.symm⟩
  · have atEnd : bytes.drop s.p = [] := List.drop_eq_nil_of_le (by omega)
    refine .inr ⟨s, if_neg inside, good, ?_⟩
    rw [atEnd, MultiFormParser.parseParts, if_pos rfl]

theorem exists_parse (bytes contentType : Bytes)
    (enough : bytes.length < turns) :
    ∃ s, parse turns bytes contentType = some s ∧
      s.Good bytes (lf :: (ascii "--" ++ extractBoundary contentType)) ∧
      s.parts = MultiFormParser.parse bytes contentType := by
  by_cases noBoundary : extractBoundary contentType = []
  · refine ⟨{ p := 0 }, if_pos noBoundary,
      PartLoop.good_init (Nat.zero_le _), ?_⟩
    rw [MultiFormParser.parse, if_pos noBoundary]
  · have ranged := segment_to_end bytes 0
    rw [List.drop_zero] at ranged
    cases found : search (ascii "--" ++ extractBoundary contentType) bytes with
    | none =>
        have missed := searchRange_of_none (Nat.zero_le _) (le_refl _)
          (ranged.symm ▸ found)
        refine ⟨{ p := 0 }, ?_, PartLoop.good_init (Nat.zero_le _), ?_⟩
        · simp [parse, noBoundary, missed]
        · rw [MultiFormParser.parse, if_neg noBoundary]
          dsimp only
          rw [found]
    | some first =>
        have fits := search_length_le found
        have hit := searchRange_of_some (Nat.zero_le _) (le_refl _)
          (ranged.symm ▸ found)
        rw [Nat.zero_add] at hit
        have dashes : 0 < (ascii "--").length := by decide
        have before : first ≠ bytes.length := by
          rw [List.length_append] at fits
          omega
        obtain ⟨q, skipped, moves⟩ := skipBoundarySuffix_moves enough fits
        have good : PartLoop.Good bytes
            (lf :: (ascii "--" ++ extractBoundary contentType)) { p := q } :=
          PartLoop.good_init moves.within
        rw [MultiFormParser.parse, if_neg noBoundary]
        dsimp only
        rw [found]
        dsimp only
        simp only [parse, if_neg noBoundary, hit, Option.bind_eq_bind,
          Option.bind_some, if_neg before, skipped]
        cases (MultiFormParser.skipBoundarySuffix (bytes.drop (first +
            (ascii "--" ++ extractBoundary contentType).length))).2 with
        | true => exact ⟨{ p := q }, rfl, good, rfl⟩
        | false =>
            have fewer : bytes.length - q < turns := by omega
            obtain ⟨s, returned, goodEnd, parts⟩ :=
              exists_run (fun _ => partTurn_well enough) good fewer
            rw [moves.behind] at parts
            exact ⟨s, returned, goodEnd, parts⟩

/-- For every input the parser ends, reads only inside of it, and takes the data
of its parts from separate ranges, one behind the other, in none of which a
boundary begins. -/
theorem parse_wellPlaced (bytes contentType : Bytes) (more : Nat) :
    ∃ s, parse (bytes.length + 1 + more) bytes contentType = some s ∧
      s.parts = MultiFormParser.parse bytes contentType ∧
      (∀ name part, s.parts.lookup name = some part →
        ∃ placed ∈ s.placed, placed.part = part) ∧
      WellPlaced bytes
        (lf :: (ascii "--" ++ extractBoundary contentType)) s.placed := by
  have enough : bytes.length < bytes.length + 1 + more := by omega
  obtain ⟨s, returned, good, parts⟩ := exists_parse bytes contentType enough
  refine ⟨s, returned, parts, ?_, good.placed⟩
  intro name part found
  rw [good.stored] at found
  rcases MultiFormParser.exists_of_lookup_foldl_storePart found with
    nothing | ⟨member, _⟩
  · rw [Finmap.lookup_empty] at nothing
    cases nothing
  · exact List.mem_map.mp member

example : (parse 40 (ascii "--B\nname: a\n\nhi\n--Bx\n--B--")
    (ascii "boundary=B")).map
      (fun s => s.placed.map fun placed => (placed.first, placed.last)) =
    some [(13, 20)] := by
  decide

end MultiFormPointers

end KitMuduo
