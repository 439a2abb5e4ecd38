import KitMuduo.Bytes

/-!
# Anchored ECMAScript expressions

The regular expressions of ECMAScript that are a sequence of anchors, single
characters and groups of characters other than a given one, their text, and the
captures when a whole subject matches.
-/

namespace EcmaRegex

open KitMuduo

inductive Term
  /-- `^` -/
  | start
  /-- `$` -/
  | finish
  | char (c : UInt8)
  /-- `([^c]+)` -/
  | group (excluded : UInt8)
  deriving DecidableEq

/-- The characters that stand for themselves only behind a backslash. -/
def SyntaxCharacter (c : UInt8) : Bool :=
  ascii "^$\\.*+?()[]\x7b\x7d|" |>.contains c

namespace Term

def text : Term → Bytes
  | start => [94]
  | finish => [36]
  | char c => if SyntaxCharacter c then [92, c] else [c]
  | group excluded => [40, 91, 94, excluded, 93, 43, 41]

/-- The excluded character needs no escape. -/
def Plain : Term → Prop
  | group excluded => excluded ≠ 92 ∧ excluded ≠ 93
  | _ => True

end Term

def text (terms : List Term) : Bytes :=
  terms.flatMap Term.text

/-- What a group can take of a subject and what it leaves, the longest
first. -/
def groupSplits (excluded : UInt8) : Bytes → List (Bytes × Bytes)
  | [] => []
  | c :: rest =>
      if c = excluded then
        []
      else
        (groupSplits excluded rest).map (fun (taken, left) => (c :: taken, left)) ++
          [([c], rest)]

/-- The captures of the groups when the terms match the rest of a subject.
`atStart` says that nothing of the subject was read yet. -/
def capture : List Term → Bool → Bytes → Option (List Bytes)
  | [], _, subject => if subject = [] then some [] else none
  | .start :: terms, atStart, subject =>
      if atStart then capture terms atStart subject else none
  | .finish :: terms, atStart, subject =>
      if subject = [] then capture terms atStart subject else none
  | .char _ :: _, _, [] => none
  | .char c :: terms, _, d :: rest =>
      if c = d then capture terms false rest else none
  | .group excluded :: terms, _, subject =>
      (groupSplits excluded subject).findSome? fun (taken, rest) =>
        (capture terms false rest).map (taken :: ·)

example : capture [.start, .char 97, .group 47, .char 98, .finish] true
    (ascii "axbb") = some [ascii "xb"] := by
  decide

theorem mem_groupSplits {excluded : UInt8} {subject taken rest : Bytes} :
    (taken, rest) ∈ groupSplits excluded subject ↔
      subject = taken ++ rest ∧ taken ≠ [] ∧ excluded ∉ taken := by
  induction subject generalizing taken with
  | nil => simp +contextual [groupSplits, eq_comm]
  | cons c subject ih =>
      rw [groupSplits]
      split
      · next same =>
          subst same
          constructor
          · intro member
            cases member
          · rintro ⟨split, some, free⟩
            cases taken with
            | nil => exact absurd rfl some
            | cons d taken =>
                cases split
                exact absurd List.mem_cons_self free
      · next other =>
          simp only [List.mem_append, List.mem_map, List.mem_singleton,
            Prod.exists, Prod.mk.injEq]
          constructor
          · rintro (⟨inner, left, member, rfl, rfl⟩ | ⟨rfl, rfl⟩)
            · obtain ⟨rfl, _, free⟩ := ih.mp member
              exact ⟨rfl, by simp, by simp [free, Ne.symm other]⟩
            · exact ⟨rfl, by simp, by simpa using Ne.symm other⟩
          · rintro ⟨split, some, free⟩
            cases taken with
            | nil => exact absurd rfl some
            | cons d taken =>
                obtain ⟨rfl, whole⟩ := List.cons.inj split
                rw [List.mem_cons, not_or] at free
                cases taken with
                | nil => exact .inr ⟨rfl, whole.symm⟩
                | cons e taken =>
                    exact .inl ⟨e :: taken, rest,
                      ih.mpr ⟨whole, by simp, free.2⟩, rfl, rfl⟩

theorem isSome_capture_group {excluded : UInt8} {terms : List Term}
    {atStart : Bool} {subject : Bytes} :
    (capture (.group excluded :: terms) atStart subject).isSome = true ↔
      ∃ taken rest, subject = taken ++ rest ∧
        (taken ≠ [] ∧ excluded ∉ taken) ∧
        (capture terms false rest).isSome = true := by
  rw [capture, List.isSome_findSome?, List.any_eq_true]
  simp only [Option.isSome_map, Prod.exists, mem_groupSplits]
  constructor
  · rintro ⟨taken, rest, ⟨split, some⟩, later⟩
    exact ⟨taken, rest, split, some, later⟩
  · rintro ⟨taken, rest, split, some, later⟩
    exact ⟨taken, rest, ⟨split, some⟩, later⟩

/-! ## The text determines the terms -/

/-- The terms of a text; `skip` characters belong to the term before. -/
def parse : Nat → Bytes → Option (List Term)
  | _, [] => some []
  | skip + 1, _ :: rest => parse skip rest
  | 0, c :: rest =>
      if c = 94 then
        (parse 0 rest).map (.start :: ·)
      else if c = 36 then
        (parse 0 rest).map (.finish :: ·)
      else if c = 92 then
        match rest with
        | [] => none
        | d :: _ =>
            if SyntaxCharacter d then
              (parse 1 rest).map (.char d :: ·)
            else
              none
      else if c = 40 then
        match rest with
        | 91 :: 94 :: excluded :: 93 :: 43 :: 41 :: _ =>
            if excluded ≠ 92 ∧ excluded ≠ 93 then
              (parse 6 rest).map (.group excluded :: ·)
            else
              none
        | _ => none
      else if SyntaxCharacter c then
        none
      else
        (parse 0 rest).map (.char c :: ·)

theorem parse_text {terms : List Term} (plain : ∀ term ∈ terms, term.Plain) :
    parse 0 (text terms) = some terms := by
  induction terms with
  | nil => rfl
  | cons term terms ih =>
      rw [List.forall_mem_cons] at plain
      have later := ih plain.2
      rw [text, List.flatMap_cons]
      rw [text] at later
      cases term with
      | start => simp [Term.text, parse, later]
      | finish => simp [Term.text, parse, later]
      | char c =>
          rw [Term.text]
          split
          · next special => simp [parse, special, later]
          · next ordinary =>
              have none : SyntaxCharacter c = false :=
                Bool.eq_false_iff.mpr ordinary
              have other (d : UInt8) (special : SyntaxCharacter d = true) :
                  c ≠ d := by
                rintro rfl
                exact ordinary special
              simp [parse, none, later, other 94 (by decide),
                other 36 (by decide), other 92 (by decide),
                other 40 (by decide)]
      | group excluded =>
          simp [Term.text, parse, later, plain.1.1, plain.1.2]

end EcmaRegex
