import KitMuduo.MultiFormParserPart

/-!
# Turns of the multipart loop

What one turn does with a piece of the body in which no boundary begins, what
becomes of the part map, and which lines of a header section decide on the name
and the file name of a part.
-/

namespace KitMuduo

open ListSearch

namespace MultiFormParser

variable {bstr piece behind p : Bytes} {map : PartMap}

/-- Without a boundary the loop is over. -/
theorem parseParts_of_none (none : nextBoundary (lf :: bstr) p = none) :
    parseParts bstr p map = map := by
  rw [parseParts]
  split
  · rfl
  · rw [none]

theorem nextBoundary_eq_none_iff {marker scan : Bytes} :
    nextBoundary marker scan = none ↔
      ∀ next ≤ scan.length, ¬ IsBoundary marker (scan.drop next) := by
  constructor
  · intro none next within isBoundary
    classical
    have some : ∃ next, next ≤ scan.length ∧
        IsBoundary marker (scan.drop next) := ⟨next, within, isBoundary⟩
    have first : IsFirst (IsBoundary marker) scan (Nat.find some) := by
      refine ⟨(Nat.find_spec some).1, (Nat.find_spec some).2, ?_⟩
      intro earlier before here
      refine Nat.find_min some before ⟨?_, here⟩
      have bound := (Nat.find_spec some).1
      omega
    rw [nextBoundary_eq_some_iff.mpr first] at none
    cases none
  · intro never
    cases found : nextBoundary marker scan with
    | none => rfl
    | some next =>
        obtain ⟨within, here, _⟩ := nextBoundary_eq_some_iff.mp found
        exact absurd here (never next within)

theorem parseParts_of_not_infix (absent : ¬ lf :: bstr <:+: p) :
    parseParts bstr p map = map := by
  refine parseParts_of_none (nextBoundary_eq_none_iff.mpr ?_)
  intro next _ isBoundary
  exact absent (isBoundary.1.isInfix.trans (List.drop_suffix next p).isInfix)

theorem dropCr_concat (content : Bytes) :
    dropCr (content ++ [cr]) = content := by
  rw [dropCr, if_pos List.getLast?_concat, List.dropLast_concat]

theorem dropCr_of_getLast? {content : Bytes}
    (noCr : content.getLast? ≠ some cr) : dropCr content = content :=
  if_neg noCr

/-- One turn takes up the piece in front of the first boundary. -/
theorem parseParts_of_clear
    (clear : Clear (IsBoundary (lf :: bstr)) piece (lf :: bstr ++ behind))
    (follows : mayFollowBoundary behind = true) :
    parseParts bstr (piece ++ (lf :: bstr ++ behind)) map =
      if (skipBoundarySuffix behind).2 = true then
        storePart map (parsePart (dropCr piece))
      else
        parseParts bstr (skipBoundarySuffix behind).1
          (storePart map (parsePart (dropCr piece))) := by
  have nonempty : piece ++ (lf :: bstr ++ behind) ≠ [] := by
    simp
  have isBoundary : IsBoundary (lf :: bstr) (lf :: bstr ++ behind) := by
    refine ⟨List.prefix_append _ _, ?_⟩
    rw [List.drop_left]
    exact follows
  have found : nextBoundary (lf :: bstr) (piece ++ (lf :: bstr ++ behind)) =
      some piece.length :=
    nextBoundary_eq_some_iff.mpr (isFirst_of_clear clear isBoundary)
  have after : (piece ++ (lf :: bstr ++ behind)).drop
      (piece.length + bstr.length + 1) = behind := by
    rw [Nat.add_assoc, ← List.drop_drop, List.drop_left, ← List.length_cons,
      List.drop_left]
  rw [parseParts, if_neg nonempty, found]
  dsimp only
  rw [List.take_left, after]

/-! ## The map -/

/-- The names in the map are those of the parts that have one. -/
theorem mem_foldl_storePart {forms : List FormPart} (map : PartMap)
    (name : Bytes) :
    name ∈ forms.foldl storePart map ↔
      name ∈ map ∨ name ≠ [] ∧ name ∈ forms.map FormPart.name := by
  induction forms generalizing map with
  | nil => simp
  | cons form forms ih =>
      rw [List.foldl_cons, ih, List.map_cons, List.mem_cons, storePart]
      split
      · next named =>
          rw [Finmap.mem_insert]
          constructor
          · rintro ((rfl | inMap) | later)
            · exact .inr ⟨named, .inl rfl⟩
            · exact .inl inMap
            · exact .inr ⟨later.1, .inr later.2⟩
          · rintro (inMap | ⟨nonempty, rfl | later⟩)
            · exact .inl (.inr inMap)
            · exact .inl (.inl rfl)
            · exact .inr ⟨nonempty, later⟩
      · next unnamed =>
          rw [not_not] at unnamed
          rw [unnamed]
          constructor
          · rintro (inMap | later)
            · exact .inl inMap
            · exact .inr ⟨later.1, .inr later.2⟩
          · rintro (inMap | ⟨nonempty, rfl | later⟩)
            · exact .inl inMap
            · exact absurd rfl nonempty
            · exact .inr ⟨nonempty, later⟩

/-- Parts of other names leave an entry alone. -/
theorem lookup_foldl_storePart_of_not_mem {forms : List FormPart}
    (map : PartMap) {name : Bytes} (others : name ∉ forms.map FormPart.name) :
    (forms.foldl storePart map).lookup name = map.lookup name := by
  induction forms generalizing map with
  | nil => rfl
  | cons form forms ih =>
      rw [List.map_cons, List.mem_cons, not_or] at others
      rw [List.foldl_cons, ih _ others.2, storePart]
      split
      · exact Finmap.lookup_insert_of_ne _ others.1
      · rfl

/-- The last part of a name is the one in the map. -/
theorem lookup_foldl_storePart_append {front back : List FormPart}
    {form : FormPart} (map : PartMap) (named : form.name ≠ [])
    (last : form.name ∉ back.map FormPart.name) :
    ((front ++ form :: back).foldl storePart map).lookup form.name =
      some form := by
  rw [List.foldl_append, List.foldl_cons,
    lookup_foldl_storePart_of_not_mem _ last, storePart, if_pos named,
    Finmap.lookup_insert]

section

variable {ι : Type*} {items : List ι} {form : ι → FormPart} {name : ι → Bytes}

theorem map_name_eq (named : ∀ item ∈ items, (form item).name = name item) :
    (items.map form).map FormPart.name = items.map name := by
  rw [List.map_map, List.map_inj_left]
  exact named

/-- What is stored of some items has their names. -/
theorem mem_stored_iff (named : ∀ item ∈ items, (form item).name = name item)
    {key : Bytes} :
    key ∈ (items.map form).foldl storePart ∅ ↔
      key ≠ [] ∧ key ∈ items.map name := by
  rw [mem_foldl_storePart, map_name_eq named,
    or_iff_right Finmap.notMem_empty]

/-- The last item of a name is the one that is found. -/
theorem lookup_stored (named : ∀ item ∈ items, (form item).name = name item)
    {front back : List ι} {item : ι} (split : items = front ++ item :: back)
    (filled : name item ≠ []) (last : name item ∉ back.map name) :
    ((items.map form).foldl storePart ∅).lookup (name item) =
      some (form item) := by
  subst split
  have here := named item (by simp)
  have behind : (back.map form).map FormPart.name = back.map name :=
    map_name_eq fun other member => named other (by simp [member])
  rw [List.map_append, List.map_cons, ← here]
  apply lookup_foldl_storePart_append ∅ (here ▸ filled)
  rw [behind, here]
  exact last

end

/-- What is in the map was there before or is one of the parts. -/
theorem exists_of_lookup_foldl_storePart {forms : List FormPart} {map : PartMap}
    {name : Bytes} {form : FormPart}
    (found : (forms.foldl storePart map).lookup name = some form) :
    map.lookup name = some form ∨ form ∈ forms ∧ form.name = name := by
  induction forms generalizing map with
  | nil => exact .inl found
  | cons first forms ih =>
      rcases ih found with earlier | ⟨member, same⟩
      · rw [storePart] at earlier
        split at earlier
        · by_cases here : name = first.name
          · subst here
            rw [Finmap.lookup_insert, Option.some.injEq] at earlier
            subst earlier
            exact .inr ⟨List.mem_cons_self, rfl⟩
          · rw [Finmap.lookup_insert_of_ne _ here] at earlier
            exact .inl earlier
        · exact .inl earlier
      · exact .inr ⟨List.mem_cons_of_mem _ member, same⟩

/-! ## The name of a part -/

theorem parseHeader_nil (part : FormPart) : parseHeader part [] = part :=
  if_pos rfl

/-- An empty line at the end makes no difference. -/
theorem foldl_getlines_eq_splitOn (text : Bytes) (part : FormPart) :
    (getlines text).foldl parseHeader part =
      (text.splitOn lf).foldl parseHeader part := by
  rw [getlines]
  split
  · next last =>
      obtain ⟨front, split⟩ := List.getLast?_eq_some_iff.mp last
      rw [split, List.dropLast_concat, List.foldl_append]
      exact (parseHeader_nil _).symm
  · rfl

theorem parseCustomHeader_keeps (part : FormPart) (line : Bytes) :
    (parseCustomHeader line part).name = part.name ∧
      (parseCustomHeader line part).filename = part.filename := by
  unfold parseCustomHeader
  split
  · exact ⟨rfl, rfl⟩
  · split
    · exact ⟨rfl, rfl⟩
    · dsimp only
      split <;> exact ⟨rfl, rfl⟩

/-- A line that is no disposition leaves the name and the file name alone. -/
theorem parseHeader_keeps (part : FormPart) {line : Bytes}
    (other : ¬ ascii "Content-Disposition:" <+: line) :
    (parseHeader part line).name = part.name ∧
      (parseHeader part line).filename = part.filename := by
  have shorter : (if line.getLast? = some cr then line.dropLast else line) <+:
      line := by
    split
    · exact List.dropLast_prefix line
    · exact List.prefix_rfl
  rw [parseHeader]
  generalize (if line.getLast? = some cr then line.dropLast else line) =
    stripped at shorter
  have notFound : ¬ search (ascii "Content-Disposition:") stripped = some 0 :=
    fun found => other ((search_eq_zero_iff.mp found).trans shorter)
  split
  · exact ⟨rfl, rfl⟩
  · dsimp only
    rw [if_neg notFound]
    split
    · exact ⟨rfl, rfl⟩
    · exact parseCustomHeader_keeps part stripped

theorem foldl_parseHeader_keeps (part : FormPart) {lines : List Bytes}
    (others : ∀ line ∈ lines, ¬ ascii "Content-Disposition:" <+: line) :
    (lines.foldl parseHeader part).name = part.name ∧
      (lines.foldl parseHeader part).filename = part.filename := by
  induction lines generalizing part with
  | nil => exact ⟨rfl, rfl⟩
  | cons line lines ih =>
      have here := parseHeader_keeps part (others line List.mem_cons_self)
      have later := ih (parseHeader part line) fun other member =>
        others other (List.mem_cons_of_mem _ member)
      exact ⟨later.1.trans here.1, later.2.trans here.2⟩

theorem mem_endedLines {lines : List Bytes} {line : Bytes}
    (member : line ∈ endedLines lines) :
    ∃ original ∈ lines, line = original ∨ line = original ++ [cr] := by
  induction lines with
  | nil => cases member
  | cons first rest ih =>
      cases rest with
      | nil =>
          exact ⟨first, List.mem_cons_self, .inl (List.mem_singleton.mp member)⟩
      | cons next rest =>
          rw [endedLines_cons_cons, List.mem_cons] at member
          rcases member with rfl | later
          · exact ⟨first, List.mem_cons_self, .inr rfl⟩
          · obtain ⟨original, known, same⟩ := ih later
            exact ⟨original, List.mem_cons_of_mem _ known, same⟩

/-- If no line below the first is a disposition, the first names the part. -/
theorem parsePart_names {first : Bytes} {further : List Bytes}
    (isLine : HeaderLine first)
    (plain : ∀ line ∈ further, line ≠ [] ∧ lf ∉ line)
    (others : ∀ line ∈ further, ¬ ascii "Content-Disposition:" <+: line)
    (data : Bytes) :
    let part := parsePart (joinLines (first :: further) ++ (k2CRLF ++ data))
    part.name = (parseHeader {} first).name ∧
      part.filename = (parseHeader {} first).filename ∧ part.data = data := by
  have nonempty : first :: further ≠ [] := List.cons_ne_nil _ _
  have each : ∀ line ∈ first :: further, line ≠ [] ∧ lf ∉ line :=
    List.forall_mem_cons.mpr ⟨⟨isLine.nonempty, isLine.noLf⟩, plain⟩
  have names : ((endedLines (first :: further)).foldl parseHeader {}).name =
        (parseHeader {} first).name ∧
      ((endedLines (first :: further)).foldl parseHeader {}).filename =
        (parseHeader {} first).filename := by
    cases further with
    | nil => exact ⟨rfl, rfl⟩
    | cons next rest =>
        rw [endedLines_cons_cons, List.foldl_cons, parseHeader_concat_cr isLine]
        apply foldl_parseHeader_keeps _
        intro line member occurs
        obtain ⟨original, known, rfl | rfl⟩ := mem_endedLines member
        · exact others line known occurs
        · exact others original known (prefix_of_not_mem (by decide) occurs)
  rw [← splitOn_joinLines nonempty fun line member => (each line member).2,
    ← foldl_getlines_eq_splitOn] at names
  rw [parsePart, splitPart_joinLines nonempty each]
  exact ⟨names.1, names.2, rfl⟩

end MultiFormParser

end KitMuduo
