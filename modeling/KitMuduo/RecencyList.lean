import Mathlib.Data.List.Perm.Basic

/-!
# Lists ordered by recency

A recency list keeps its most recently used item in front.  Using a key moves
its items to the front and keeps the order of the others.  The laws below let
uses be postponed: a log of uses can be replayed later, uses of a key that is
forgotten in the meantime can be dropped from the log, and a use commutes with
every change that does not touch keys.
-/

namespace RecencyList

variable {α κ : Type*} [DecidableEq κ] (key : α → κ)

/-- The items of one key. -/
def only (used : κ) (items : List α) : List α :=
  items.filter fun item => key item = used

/-- The items of all other keys. -/
def forget (used : κ) (items : List α) : List α :=
  items.filter fun item => key item ≠ used

/-- Use a key: its items move to the front. -/
def touch (used : κ) (items : List α) : List α :=
  only key used items ++ forget key used items

/-- Use the keys of a log, oldest first. -/
def replay (log : List κ) (items : List α) : List α :=
  log.foldl (fun items used => touch key used items) items

@[simp]
theorem replay_nil (items : List α) : replay key [] items = items :=
  rfl

@[simp]
theorem replay_cons (used : κ) (log : List κ) (items : List α) :
    replay key (used :: log) items =
      replay key log (touch key used items) :=
  rfl

theorem replay_append (first second : List κ) (items : List α) :
    replay key (first ++ second) items =
      replay key second (replay key first items) := by
  simp [replay, List.foldl_append]

theorem touch_perm (used : κ) (items : List α) :
    (touch key used items).Perm items := by
  have split := List.filter_append_perm (fun item => decide (key item = used))
    items
  simpa only [touch, only, forget, ne_eq, decide_not] using split

theorem replay_perm (log : List κ) (items : List α) :
    (replay key log items).Perm items := by
  induction log generalizing items with
  | nil => exact List.Perm.refl items
  | cons used log ih =>
      exact (ih (touch key used items)).trans (touch_perm key used items)

@[simp]
theorem only_only (used : κ) (items : List α) :
    only key used (only key used items) = only key used items := by
  simp [only, List.filter_filter]

@[simp]
theorem forget_forget (used : κ) (items : List α) :
    forget key used (forget key used items) = forget key used items := by
  simp [forget, List.filter_filter]

@[simp]
theorem only_forget_self (used : κ) (items : List α) :
    only key used (forget key used items) = [] := by
  simp [only, forget, List.filter_filter]

@[simp]
theorem forget_only_self (used : κ) (items : List α) :
    forget key used (only key used items) = [] := by
  simp [only, forget, List.filter_filter]

theorem only_forget_of_ne {used other : κ} (different : used ≠ other)
    (items : List α) :
    only key used (forget key other items) = only key used items := by
  simp only [only, forget, List.filter_filter]
  apply List.filter_congr
  intro item _
  by_cases same : key item = used
  · simp [same, different]
  · simp [same]

theorem forget_only_of_ne {used other : κ} (different : used ≠ other)
    (items : List α) :
    forget key other (only key used items) = only key used items := by
  simp only [only, forget, List.filter_filter]
  apply List.filter_congr
  intro item _
  by_cases same : key item = used
  · simp [same, different]
  · simp [same]

theorem forget_comm (first second : κ) (items : List α) :
    forget key first (forget key second items) =
      forget key second (forget key first items) := by
  simp only [forget, List.filter_filter]
  apply List.filter_congr
  intro item _
  exact Bool.and_comm _ _

theorem forget_append (used : κ) (first second : List α) :
    forget key used (first ++ second) =
      forget key used first ++ forget key used second :=
  List.filter_append ..

theorem only_append (used : κ) (first second : List α) :
    only key used (first ++ second) =
      only key used first ++ only key used second :=
  List.filter_append ..

/-- A use does not reorder the items of any one key. -/
@[simp]
theorem only_touch (used other : κ) (items : List α) :
    only key used (touch key other items) = only key used items := by
  by_cases same : used = other
  · subst other
    simp [touch, only_append]
  · have empty : only key used (only key other items) = [] := by
      simp only [only, List.filter_filter, List.filter_eq_nil_iff]
      intro item _ both
      simp only [Bool.and_eq_true, decide_eq_true_eq] at both
      exact same (both.1.symm.trans both.2)
    rw [touch, only_append, empty, only_forget_of_ne key same,
      List.nil_append]

@[simp]
theorem forget_touch_self (used : κ) (items : List α) :
    forget key used (touch key used items) = forget key used items := by
  simp [touch, forget_append]

theorem forget_touch_of_ne {used other : κ} (different : used ≠ other)
    (items : List α) :
    forget key used (touch key other items) =
      touch key other (forget key used items) := by
  rw [touch, forget_append, forget_only_of_ne key different.symm, touch,
    only_forget_of_ne key different.symm, forget_comm]

@[simp]
theorem touch_touch (used : κ) (items : List α) :
    touch key used (touch key used items) = touch key used items := by
  rw [touch, only_touch, forget_touch_self, touch]

@[simp]
theorem only_replay (used : κ) (log : List κ) (items : List α) :
    only key used (replay key log items) = only key used items := by
  induction log generalizing items with
  | nil => rfl
  | cons other log ih => rw [replay_cons, ih, only_touch]

/-- Forgetting a key after a replay: its uses need not be replayed. -/
theorem forget_replay (used : κ) (log : List κ) (items : List α) :
    forget key used (replay key log items) =
      replay key (log.filter (· ≠ used)) (forget key used items) := by
  induction log generalizing items with
  | nil => rfl
  | cons other log ih =>
      rw [replay_cons, ih]
      by_cases same : other = used
      · subst other
        simp
      · rw [forget_touch_of_ne key (Ne.symm same)]
        simp [same]

/-- Using a key after a replay depends on the other keys only through what is
left when that key is forgotten. -/
theorem touch_replay (used : κ) (log : List κ) (items : List α) :
    touch key used (replay key log items) =
      only key used items ++
        replay key (log.filter (· ≠ used)) (forget key used items) := by
  rw [touch, only_replay, forget_replay]

/-- A use repeated at the end of a log changes nothing. -/
theorem replay_append_getLast {log : List κ} {used : κ}
    (last : log.getLast? = some used) (items : List α) :
    replay key (log ++ [used]) items = replay key log items := by
  obtain ⟨earlier, rfl⟩ := List.getLast?_eq_some_iff.mp last
  rw [replay_append, replay_append]
  simp

/-- Changing items without changing their keys commutes with a removal. -/
theorem forget_map {β : Type*} (change : α → β) (keyAfter : β → κ)
    (keeps : ∀ item, keyAfter (change item) = key item) (used : κ)
    (items : List α) :
    forget keyAfter used (items.map change) =
      (forget key used items).map change := by
  simp [forget, List.filter_map, Function.comp_def, keeps]

/-- Two ways of naming the same items use the same items. -/
theorem touch_congr {μ : Type*} [DecidableEq μ] (name : α → μ)
    {used : κ} {named : μ} {items : List α}
    (same : ∀ item ∈ items, key item = used ↔ name item = named) :
    touch key used items = touch name named items := by
  unfold touch only forget
  congr 1
  · apply List.filter_congr
    intro item member
    simp [same item member]
  · apply List.filter_congr
    intro item member
    simp [same item member]

theorem forget_congr {μ : Type*} [DecidableEq μ] (name : α → μ)
    {used : κ} {named : μ} {items : List α}
    (same : ∀ item ∈ items, key item = used ↔ name item = named) :
    forget key used items = forget name named items := by
  unfold forget
  apply List.filter_congr
  intro item member
  simp [same item member]

/-- In a list without repeated keys, a member is all there is of its key. -/
theorem only_of_mem {items : List α} (distinct : (items.map key).Nodup)
    {item : α} (member : item ∈ items) :
    only key (key item) items = [item] := by
  induction items with
  | nil => simp at member
  | cons head tail ih =>
      simp only [List.map_cons, List.nodup_cons] at distinct
      rcases List.mem_cons.mp member with rfl | inTail
      · have none : only key (key item) tail = [] := by
          simp only [only, List.filter_eq_nil_iff, decide_eq_true_eq]
          intro other inTail same
          exact distinct.1 (same ▸ List.mem_map_of_mem inTail)
        simpa [only] using none
      · have headNe : key head ≠ key item := by
          intro same
          exact distinct.1 (same ▸ List.mem_map_of_mem inTail)
        have rest := ih distinct.2 inTail
        simpa [only, headNe] using rest

theorem forget_of_not_mem {used : κ} {items : List α}
    (absent : used ∉ items.map key) : forget key used items = items := by
  apply List.filter_eq_self.mpr
  intro item member
  have different : key item ≠ used := by
    intro same
    exact absent (same ▸ List.mem_map_of_mem member)
  simpa using different

end RecencyList
