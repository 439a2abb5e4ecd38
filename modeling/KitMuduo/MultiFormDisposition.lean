import KitMuduo.MultiFormLoop

/-!
# The parameters of a disposition

The values of `name` and `filename` are looked for in the whole line, by the
first place where the word stands in front of an equals sign and a quote.  That
place may belong to a longer key or lie at the end of a value.
-/

namespace KitMuduo

open ListSearch

namespace MultiFormParser

/-- A parameter of a disposition line, with the blanks around the semicolon in
front of it. -/
structure Param where
  blanks : Bytes
  moreBlanks : Bytes
  key : Bytes
  value : Bytes

namespace Param

def gap (param : Param) : Bytes :=
  param.blanks ++ 59 :: param.moreBlanks

def text (param : Param) : Bytes :=
  param.gap ++ param.key ++ [61, 34] ++ param.value ++ [34]

structure Allowed (param : Param) : Prop where
  blanks : ∀ c ∈ param.blanks, isLwsp c = true
  moreBlanks : ∀ c ∈ param.moreBlanks, isLwsp c = true
  key_noQuote : 34 ∉ param.key
  key_noLf : lf ∉ param.key
  value_noQuote : 34 ∉ param.value
  value_noLf : lf ∉ param.value

end Param

def paramsLine (params : List Param) : Bytes :=
  ascii "Content-Disposition: form-data" ++ params.flatMap Param.text

/-- The value of the parameter with this key. -/
def valueOf (attr : Bytes) (params : List Param) : Bytes :=
  match params.find? fun param => param.key = attr with
  | some param => param.value
  | none => []

/-- What stands in front of the first quote of the parameters. -/
def keyText : List Param → Bytes
  | [] => []
  | param :: _ => param.gap ++ param.key ++ [61]

/-- What is taken for the value of `attr`: a key may end in the word, or a value
in the word and an equals sign. -/
def taken (attr : Bytes) : List Param → Bytes
  | [] => []
  | param :: rest =>
      if attr <:+ param.key then param.value
      else if attr ++ [61] <:+ param.value then keyText rest
      else taken attr rest

/-- The first parameter in which the word is found has it as its key, or what is
taken there happens to be the value. -/
def ReadsRight (attr value : Bytes) : List Param → Prop
  | [] => True
  | param :: rest =>
      if param.key = attr then True
      else if attr <:+ param.key then param.value = value
      else if attr ++ [61] <:+ param.value then keyText rest = value
      else ReadsRight attr value rest

theorem taken_eq_valueOf_iff (attr : Bytes) (params : List Param) :
    taken attr params = valueOf attr params ↔
      ReadsRight attr (valueOf attr params) params := by
  induction params with
  | nil => simp [taken, valueOf, ReadsRight]
  | cons param rest ih =>
      by_cases exact : param.key = attr
      · have suffix : attr <:+ param.key := exact ▸ List.suffix_rfl
        simp [taken, valueOf, ReadsRight, exact]
      · have skipped : valueOf attr (param :: rest) = valueOf attr rest := by
          simp [valueOf, exact]
        rw [skipped, taken, ReadsRight, if_neg exact]
        split
        · rfl
        · split
          · rfl
          · exact ih

/-! ## Where the word is found -/

/-- A word that a `name` or `filename` attribute is. -/
structure AttrWord (attr : Bytes) : Prop where
  nonempty : attr ≠ []
  noQuote : 34 ∉ attr
  noGap : ∀ c ∈ attr, isLwsp c = false ∧ c ≠ 59

variable {attr : Bytes} {param : Param} {params : List Param}

/-- What stands in front of a key is no part of the word. -/
theorem attr_suffix_append_iff (word : AttrWord attr) (allowed : param.Allowed)
    (lead : Bytes) :
    attr ++ [61] <:+ lead ++ (param.gap ++ param.key ++ [61]) ↔
      attr <:+ param.key := by
  have whole : lead ++ (param.gap ++ param.key ++ [61]) =
      lead ++ param.blanks ++ 59 :: (param.moreBlanks ++ param.key) ++
        [61] := by
    simp [Param.gap]
  rw [whole, List.suffix_append_self_iff]
  constructor
  · intro occurs
    refine suffix_of_forall_not_mem (fun c blank member => ?_)
      (suffix_of_not_mem (fun member => (word.noGap 59 member).2 rfl) occurs)
    have notBlank := (word.noGap c member).1
    rw [allowed.moreBlanks c blank] at notBlank
    cases notBlank
  · intro occurs
    apply occurs.trans
    rw [List.append_cons, ← List.append_assoc]
    exact List.suffix_append _ _

theorem Param.Allowed.noQuote_front (allowed : param.Allowed) :
    34 ∉ param.gap ++ param.key ++ [61] := by
  have notBlank : ∀ blanks : Bytes, (∀ c ∈ blanks, isLwsp c = true) →
      34 ∉ blanks := by
    intro blanks each member
    exact absurd (each 34 member) (by decide)
  simp [Param.gap, notBlank _ allowed.blanks, notBlank _ allowed.moreBlanks,
    allowed.key_noQuote]

theorem Param.text_eq (param : Param) :
    param.text = (param.gap ++ param.key ++ [61]) ++ [34] ++
      (param.value ++ [34]) := by
  simp [Param.text]

/-- The word is not found up to the value of a parameter whose key does not end
in it. -/
theorem clear_key (word : AttrWord attr) (allowed : param.Allowed)
    (otherKey : ¬ attr <:+ param.key) {lead : Bytes} (noQuote : 34 ∉ lead)
    (back : Bytes) :
    Clear (attr ++ [61] ++ 34 :: [] <+: ·)
      (lead ++ (param.gap ++ param.key ++ [61]) ++ [34]) back := by
  have wordNoQuote : 34 ∉ attr ++ [61] := by
    simp [word.noQuote]
  have frontNoQuote : 34 ∉ lead ++ (param.gap ++ param.key ++ [61]) := by
    rw [List.mem_append, not_or]
    exact ⟨noQuote, allowed.noQuote_front⟩
  exact clear_of_not_suffix wordNoQuote frontNoQuote
    ((attr_suffix_append_iff word allowed lead).not.mpr otherKey)

/-- Nor in its value, if that does not end in the word and an equals sign. -/
theorem clear_param (word : AttrWord attr) (allowed : param.Allowed)
    (otherKey : ¬ attr <:+ param.key)
    (otherValue : ¬ attr ++ [61] <:+ param.value) {lead : Bytes}
    (noQuote : 34 ∉ lead) (back : Bytes) :
    Clear (attr ++ [61] ++ 34 :: [] <+: ·) (lead ++ param.text) back := by
  have wordNoQuote : 34 ∉ attr ++ [61] := by
    simp [word.noQuote]
  have whole : lead ++ param.text =
      (lead ++ (param.gap ++ param.key ++ [61]) ++ [34]) ++
        (param.value ++ [34]) := by
    rw [Param.text_eq]
    simp only [List.append_assoc]
  rw [whole, clear_append]
  exact ⟨clear_key word allowed otherKey noQuote _,
    clear_of_not_suffix wordNoQuote allowed.value_noQuote otherValue⟩

/-- Without a closing quote nothing is read. -/
theorem extractQuoted_of_unclosed {front back : Bytes}
    (clear : Clear (attr <+: ·) front (attr ++ back)) (noQuote : 34 ∉ back) :
    extractQuoted (front ++ (attr ++ back)) attr = [] := by
  have quote : search [34] back = none := search_eq_none_of_not_mem noQuote
  rw [extractQuoted, search_of_clear clear]
  simp only [← List.drop_drop, List.drop_left, quote]

/-- Behind the end of a value the text of the next key is read. -/
theorem extractQuoted_keyText {pattern front : Bytes}
    (allowed : ∀ param ∈ params, param.Allowed)
    (clear : Clear (pattern <+: ·) front
      (pattern ++ params.flatMap Param.text)) :
    extractQuoted (front ++ (pattern ++ params.flatMap Param.text)) pattern =
      keyText params := by
  cases params with
  | nil =>
      rw [List.flatMap_nil] at clear ⊢
      exact extractQuoted_of_unclosed clear List.not_mem_nil
  | cons next rest =>
      have text : (next :: rest).flatMap Param.text =
          (next.gap ++ next.key ++ [61]) ++
            34 :: (next.value ++ 34 :: rest.flatMap Param.text) := by
        simp [Param.text]
      rw [text] at clear ⊢
      exact extractQuoted_of_clear clear
        (allowed next List.mem_cons_self).noQuote_front

/-- The first place of the word, with a quote-free part in front of it. -/
theorem clear_word (word : AttrWord attr) {done front back : Bytes}
    (noQuote : 34 ∉ front)
    (clear : Clear (attr ++ [61] ++ 34 :: [] <+: ·) done
      (front ++ (attr ++ [61] ++ 34 :: [] ++ back))) :
    Clear (attr ++ [61] ++ 34 :: [] <+: ·) (done ++ front)
      (attr ++ [61] ++ 34 :: [] ++ back) := by
  have wordNoQuote : 34 ∉ attr ++ [61] := by
    simp [word.noQuote]
  rw [clear_append]
  refine ⟨clear, ?_⟩
  rw [List.append_assoc _ [34], List.singleton_append]
  exact clear_of_key wordNoQuote noQuote

/-- What is read, by induction on the parameters; `lead` is what stands in front
of the next one and `done` what has been passed already. -/
theorem extractQuoted_params (word : AttrWord attr)
    (allowed : ∀ param ∈ params, param.Allowed) {done lead : Bytes}
    (noQuote : 34 ∉ lead)
    (clear : Clear (attr ++ [61] ++ 34 :: [] <+: ·) done
      (lead ++ params.flatMap Param.text)) :
    extractQuoted (done ++ (lead ++ params.flatMap Param.text))
      (attr ++ [61] ++ 34 :: []) = taken attr params := by
  induction params generalizing done lead with
  | nil =>
      rw [List.flatMap_nil, List.append_nil] at clear ⊢
      apply extractQuoted_eq_nil (by simp)
      rw [clear_append, List.append_nil]
      exact ⟨clear, clear_of_not_mem (by simp) noQuote⟩
  | cons param rest ih =>
      rw [List.forall_mem_cons] at allowed
      have frontNoQuote := allowed.1.noQuote_front
      rw [taken]
      split
      · next inKey =>
          obtain ⟨start, key⟩ := inKey
          have found : lead ++ (param :: rest).flatMap Param.text =
              (lead ++ param.gap ++ start) ++ (attr ++ [61] ++ 34 :: [] ++
                (param.value ++ 34 :: rest.flatMap Param.text)) := by
            simp [Param.text, ← key]
          have startNoQuote : 34 ∉ lead ++ param.gap ++ start := by
            rw [← key] at frontNoQuote
            simp only [List.mem_append, not_or] at frontNoQuote ⊢
            exact ⟨⟨noQuote, frontNoQuote.1.1⟩, frontNoQuote.1.2.1⟩
          rw [found] at clear ⊢
          rw [← List.append_assoc]
          exact extractQuoted_of_clear (clear_word word startNoQuote clear)
            allowed.1.value_noQuote
      · next otherKey =>
          split
          · next inValue =>
              obtain ⟨start, value⟩ := inValue
              have found : lead ++ (param :: rest).flatMap Param.text =
                  (lead ++ (param.gap ++ param.key ++ [61]) ++ [34]) ++
                    (start ++ (attr ++ [61] ++ 34 :: [] ++
                      rest.flatMap Param.text)) := by
                simp [Param.text, ← value]
              have startNoQuote : 34 ∉ start := fun member =>
                allowed.1.value_noQuote (value ▸ List.mem_append_left _ member)
              have clearKey := clear_key word allowed.1 otherKey noQuote
                (start ++ (attr ++ [61] ++ 34 :: [] ++
                  rest.flatMap Param.text))
              rw [found] at clear ⊢
              have clearValue := clear_word word startNoQuote
                (clear_append.mpr ⟨clear, clearKey⟩)
              rw [← List.append_assoc, ← List.append_assoc]
              exact extractQuoted_keyText allowed.2 clearValue
          · next otherValue =>
              have here := clear_param word allowed.1 otherKey otherValue
                noQuote (rest.flatMap Param.text)
              have passed : done ++ (lead ++ (param :: rest).flatMap
                    Param.text) =
                  (done ++ (lead ++ param.text)) ++
                    ([] ++ rest.flatMap Param.text) := by
                simp
              rw [passed]
              apply ih allowed.2 List.not_mem_nil
              rw [clear_append, List.nil_append]
              refine ⟨?_, here⟩
              simpa using clear

/-! ## The line -/

theorem attrWord_name : AttrWord (ascii "name") :=
  ⟨by decide, by decide, by simp [ascii, isLwsp]⟩

theorem attrWord_filename : AttrWord (ascii "filename") :=
  ⟨by decide, by decide, by simp [ascii, isLwsp]⟩

theorem extractQuoted_paramsLine (word : AttrWord attr)
    (allowed : ∀ param ∈ params, param.Allowed) :
    extractQuoted (paramsLine params) (attr ++ [61] ++ 34 :: []) =
      taken attr params := by
  have lead : 34 ∉ ascii "Content-Disposition: form-data" := by
    decide
  have read : extractQuoted ([] ++ paramsLine params)
      (attr ++ [61] ++ 34 :: []) = taken attr params :=
    extractQuoted_params word allowed lead trivial
  exact read

theorem headerLine_paramsLine (allowed : ∀ param ∈ params, param.Allowed) :
    HeaderLine (paramsLine params) where
  nonempty := List.append_ne_nil_of_left_ne_nil (by decide) _
  noLf := by
    have lead : lf ∉ ascii "Content-Disposition: form-data" := by
      decide
    have notBlank : ∀ blanks : Bytes, (∀ c ∈ blanks, isLwsp c = true) →
        lf ∉ blanks := by
      intro blanks each member
      exact absurd (each lf member) (by decide)
    have semicolon : lf ≠ 59 := by decide
    have equals : lf ≠ 61 := by decide
    have quote : lf ≠ 34 := by decide
    rw [paramsLine, List.mem_append, not_or]
    refine ⟨lead, fun member => ?_⟩
    obtain ⟨param, known, inText⟩ := List.mem_flatMap.mp member
    have here := allowed param known
    simp [Param.text, Param.gap, notBlank _ here.blanks,
      notBlank _ here.moreBlanks, here.key_noLf, here.value_noLf, semicolon,
      equals, quote] at inText
  noCr := by
    rcases List.eq_nil_or_concat params with rfl | ⟨front, last, rfl⟩
    · decide
    · rw [List.concat_eq_append, paramsLine, List.flatMap_append,
        List.flatMap_singleton, Param.text, ← List.append_assoc,
        ← List.append_assoc, List.getLast?_concat]
      decide

theorem parseHeader_paramsLine (allowed : ∀ param ∈ params, param.Allowed) :
    (parseHeader {} (paramsLine params)).name =
        taken (ascii "name") params ∧
      (parseHeader {} (paramsLine params)).filename =
        taken (ascii "filename") params := by
  have isField : search (ascii "Content-Disposition:") (paramsLine params) =
      some 0 := by
    have split : ascii "Content-Disposition: form-data" =
        ascii "Content-Disposition:" ++ ascii " form-data" := by
      decide
    rw [search_eq_zero_iff, paramsLine, split, List.append_assoc]
    exact List.prefix_append _ _
  have name : ascii "name=\"" = ascii "name" ++ [61] ++ 34 :: [] := by
    decide
  have filename : ascii "filename=\"" =
      ascii "filename" ++ [61] ++ 34 :: [] := by
    decide
  rw [parseHeader_eq (headerLine_paramsLine allowed), if_pos isField,
    parseContentDisposition, name, filename,
    extractQuoted_paramsLine attrWord_name allowed,
    extractQuoted_paramsLine attrWord_filename allowed]
  exact ⟨rfl, rfl⟩

/-- A part with this disposition has the values of `name` and `filename`, and is
not stored without a `name`. -/
def StoresParams (params : List Param) : Prop :=
  ∀ (further : List Bytes) (data : Bytes),
    (∀ line ∈ further, line ≠ [] ∧ lf ∉ line ∧
      ¬ ascii "Content-Disposition:" <+: line) →
    let part := parsePart
      (joinLines (paramsLine params :: further) ++ (k2CRLF ++ data))
    part.name = valueOf (ascii "name") params ∧
      part.filename = valueOf (ascii "filename") params ∧
      ((∀ param ∈ params, param.key ≠ ascii "name") →
        ∀ map, storePart map part = map)

/-- The values are the right ones exactly if each of the two words is found
where it should be. -/
theorem storesParams_iff (allowed : ∀ param ∈ params, param.Allowed) :
    StoresParams params ↔
      ReadsRight (ascii "name") (valueOf (ascii "name") params) params ∧
        ReadsRight (ascii "filename") (valueOf (ascii "filename") params)
          params := by
  have isLine := headerLine_paramsLine allowed
  have read := parseHeader_paramsLine allowed
  rw [← taken_eq_valueOf_iff, ← taken_eq_valueOf_iff, ← read.1, ← read.2]
  constructor
  · intro stores
    have here := stores [] [] (by simp)
    have names := parsePart_names isLine (List.forall_mem_nil _)
      (List.forall_mem_nil _) []
    exact ⟨names.1.symm.trans here.1, names.2.1.symm.trans here.2.1⟩
  · rintro ⟨name, filename⟩ further data plain
    have names := parsePart_names isLine
      (fun line member => ⟨(plain line member).1, (plain line member).2.1⟩)
      (fun line member => (plain line member).2.2) data
    refine ⟨names.1.trans name, names.2.1.trans filename, ?_⟩
    intro unnamed map
    have absent : valueOf (ascii "name") params = [] := by
      have none : params.find? (fun param => param.key = ascii "name") = none :=
        List.find?_eq_none.mpr fun param member => by
          simpa using unnamed param member
      rw [valueOf, none]
    rw [storePart, if_neg]
    rw [not_not]
    exact (names.1.trans name).trans absent

/-- A parameter behind a semicolon and a space. -/
def plainParam (key value : String) : Param where
  blanks := []
  moreBlanks := [32]
  key := ascii key
  value := ascii value

theorem allowed_plainParam {key value : String} (noQuote : 34 ∉ ascii key)
    (noLf : lf ∉ ascii key) (valueNoQuote : 34 ∉ ascii value)
    (valueNoLf : lf ∉ ascii value) : (plainParam key value).Allowed :=
  ⟨by simp [plainParam], by simp [plainParam, isLwsp], noQuote, noLf,
    valueNoQuote, valueNoLf⟩

theorem storesParams_nameFirst :
    StoresParams [plainParam "name" "n", plainParam "filename" "f.txt"] := by
  let params := [plainParam "name" "n", plainParam "filename" "f.txt"]
  have allowed : ∀ param ∈ params, param.Allowed := by
    intro param member
    simp only [params, List.mem_cons, List.not_mem_nil, or_false] at member
    rcases member with rfl | rfl
    · exact allowed_plainParam (by decide) (by decide) (by decide) (by decide)
    · exact allowed_plainParam (by decide) (by decide) (by decide) (by decide)
  refine (storesParams_iff allowed).mpr ⟨?_, ?_⟩
  · rw [ReadsRight, if_pos (by decide)]
    trivial
  · rw [ReadsRight, if_neg (by decide), if_neg (by decide), if_neg (by decide),
      ReadsRight, if_pos (by decide)]
    trivial

/-- With the file name first it is taken for the name. -/
theorem not_storesParams_filenameFirst :
    ¬ ∀ params : List Param, (∀ param ∈ params, param.Allowed) →
      (params.map Param.key).Nodup → StoresParams params := by
  intro always
  let params := [plainParam "filename" "f.txt", plainParam "name" "n"]
  have allowed : ∀ param ∈ params, param.Allowed := by
    intro param member
    simp only [params, List.mem_cons, List.not_mem_nil, or_false] at member
    rcases member with rfl | rfl
    · exact allowed_plainParam (by decide) (by decide) (by decide) (by decide)
    · exact allowed_plainParam (by decide) (by decide) (by decide) (by decide)
  have stores := always params allowed (by decide) [] []
    (List.forall_mem_nil _)
  have names := parsePart_names (headerLine_paramsLine allowed)
    (List.forall_mem_nil _) (List.forall_mem_nil _) []
  have name := names.1.symm.trans stores.1
  rw [(parseHeader_paramsLine allowed).1] at name
  revert name
  decide

end MultiFormParser

end KitMuduo
