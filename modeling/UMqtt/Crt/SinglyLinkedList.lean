/-
  UMqtt.Crt.SinglyLinkedList — the list of pending sends as the pointers it is made of
  (uMQTT/ports/src/singlylinkedlist.c).

  A list is two pointers, `head` and `tail`, and the memory of its nodes. `malloc` answers
  with an address that is no node of the list, or NULL; `free` takes a node out of the
  memory. Reading or writing through NULL or through a freed node has no meaning (`none`),
  and neither has a loop that is still running when its fuel ends, so what is proved of a
  call says that it does neither. A condition function sees the items that it was asked
  about before in the same call, so it may keep a state of its own; it does not call the
  list.

  Over it stands the queue that the list is: items under their handles, in order.
  `run_queue`: whatever is called, with whatever allocation outcomes and condition
  functions, the calls return what the queue's operations return, following `next` from
  `head` visits the queue and ends in NULL, `tail` is its last node, and a call that fails
  has written nothing.
-/

import UMqtt.Lib.Chain
import UMqtt.Crt.Buffer

namespace UMqtt.Crt.SinglyLinkedList

open UMqtt.Lib

variable {A V : Type}

section Code

variable [DecidableEq A]

/-! ## The code -/

/-- `LIST_INSTANCE`, with the memory of its `LIST_ITEM_INSTANCE`s. -/
structure ListInstance (A V : Type) where
  items : Cells A V
  head : Option A
  tail : Option A

inductive Handle where
  | null
  | valid
  deriving DecidableEq, Repr

/-- `bool condition_function(item, match_context, &continue_processing)`: what it returns and
    where it leaves `continue_processing`, after the items of the earlier calls. -/
abbrev ConditionFunction (V : Type) := List V → V → Bool × Bool

def create : ListInstance A V := ⟨fun _ => none, none, none⟩

/-- `malloc` of a node: an address that is in use is not granted. -/
def mallocItem (answer : Option A) (w : ListInstance A V) : Option A := answer.filter fun a => (w.items a).isNone

def freeItem (a : A) (w : ListInstance A V) : Option (ListInstance A V) :=
  match w.items a with
  | none => none
  | some _ => some { w with items := Function.update w.items a none }

def setNext (a : Option A) (next : Option A) (w : ListInstance A V) : Option (ListInstance A V) :=
  match a with
  | none => none
  | some a =>
    match w.items a with
    | none => none
    | some cell => some { w with items := Function.update w.items a (some { cell with next := next }) }

def add (list : Handle) (item : Option V) (answer : Option A) (w : ListInstance A V) :
    Option (Option A × ListInstance A V) :=
  match list, item with
  | .valid, some item =>
    match mallocItem answer w with
    | none => some (none, w)
    | some result =>
      let w := { w with items := Function.update w.items result (some ⟨item, none⟩) }
      if w.head = none then some (some result, { w with head := some result, tail := some result })
      else (setNext w.tail (some result) w).map fun w => (some result, { w with tail := some result })
  | _, _ => some (none, w)

/-- How both removals take a node out. -/
def unlink (previous : Option A) (current : A) (next : Option A) (w : ListInstance A V) : Option (ListInstance A V) := do
  let w ← if previous ≠ none then setNext previous next w else some { w with head := next }
  let w := if some current = w.tail then { w with tail := previous } else w
  freeItem current w

def removeLoop (item : A) : Nat → Option A → Option A → ListInstance A V → Option (Nat × ListInstance A V)
  | _, _, none, w => some (failure, w)
  | 0, _, some _, _ => none
  | fuel + 1, previous, some current, w =>
    match w.items current with
    | none => none
    | some cell =>
      if current = item then (unlink previous current cell.next w).map fun w => (0, w)
      else removeLoop item fuel (some current) cell.next w

def remove (fuel : Nat) (list : Handle) (item : Option A) (w : ListInstance A V) : Option (Nat × ListInstance A V) :=
  match list, item with
  | .valid, some item => removeLoop item fuel none w.head w
  | _, _ => some (failure, w)

def removeIfLoop (condition : ConditionFunction V) :
    Nat → List V → Option A → Option A → ListInstance A V → Option (ListInstance A V)
  | _, _, _, none, w => some w
  | 0, _, _, some _, _ => none
  | fuel + 1, asked, previous, some current, w =>
    match w.items current with
    | none => none
    | some cell =>
      if (condition asked cell.item).1 then do
        let w ← unlink previous current cell.next w
        if (condition asked cell.item).2 then removeIfLoop condition fuel (asked ++ [cell.item]) previous cell.next w
        else some w
      else if (condition asked cell.item).2 then
        removeIfLoop condition fuel (asked ++ [cell.item]) (some current) cell.next w
      else some w

def removeIf (fuel : Nat) (list : Handle) (condition : Option (ConditionFunction V)) (w : ListInstance A V) :
    Option (Nat × ListInstance A V) :=
  match list, condition with
  | .valid, some condition => (removeIfLoop condition fuel [] none w.head w).map fun w => (0, w)
  | _, _ => some (failure, w)

/-! ## Calls -/

inductive Call (A V : Type) where
  | add (list : Handle) (item : Option V) (answer : Option A)
  | remove (list : Handle) (item : Option A)
  | removeIf (list : Handle) (condition : Option (ConditionFunction V))

inductive Returned (A : Type) where
  | item (handle : Option A)
  | code (result : Nat)
  deriving DecidableEq, Repr

/-- `add` fails with NULL, the removals with a non-zero code. -/
def Returned.Fails : Returned A → Prop
  | .item handle => handle = none
  | .code result => result ≠ 0

def perform (fuel : Nat) (w : ListInstance A V) : Call A V → Option (Returned A × ListInstance A V)
  | .add list item answer => (add list item answer w).map fun r => (.item r.1, r.2)
  | .remove list item => (remove fuel list item w).map fun r => (.code r.1, r.2)
  | .removeIf list condition => (removeIf fuel list condition w).map fun r => (.code r.1, r.2)

structure Step (A V : Type) where
  returned : Returned A
  before : ListInstance A V
  after : ListInstance A V

def run (fuel : Nat) : List (Call A V) → ListInstance A V → Option (List (Step A V) × ListInstance A V)
  | [], w => some ([], w)
  | c :: cs, w => do
    let r ← perform fuel w c
    let rs ← run fuel cs r.2
    some (⟨r.1, w, r.2⟩ :: rs.1, rs.2)

/-! ## The queue -/

/-- What a condition function leaves: the items that it keeps and those that it is not asked about. -/
def kept (condition : ConditionFunction V) : List V → List (A × V) → List (A × V)
  | _, [] => []
  | asked, x :: xs =>
    (if (condition asked x.2).1 then [] else [x]) ++
      (if (condition asked x.2).2 then kept condition (asked ++ [x.2]) xs else xs)

def queueStep (xs : List (A × V)) : Call A V → Returned A × List (A × V)
  | .add .valid (some item) (some answer) =>
    if answer ∈ addresses xs then (.item none, xs) else (.item (some answer), xs ++ [(answer, item)])
  | .add _ _ _ => (.item none, xs)
  | .remove .valid (some item) => (.code (if item ∈ addresses xs then 0 else failure), xs.filter (·.1 ≠ item))
  | .remove _ _ => (.code failure, xs)
  | .removeIf .valid (some condition) => (.code 0, kept condition [] xs)
  | .removeIf _ _ => (.code failure, xs)

def queue (cs : List (Call A V)) (xs : List (A × V)) : List (A × V) := cs.foldl (fun xs c => (queueStep xs c).2) xs

def answers : List (Call A V) → List (A × V) → List (Returned A)
  | [], _ => []
  | c :: cs, xs => (queueStep xs c).1 :: answers cs (queueStep xs c).2

end Code

structure IsQueue (w : ListInstance A V) (xs : List (A × V)) : Prop where
  chain : Segment w.items w.head xs none
  tail : w.tail = last xs
  /-- Its memory holds nothing else. -/
  only : ∀ a, w.items a ≠ none → a ∈ addresses xs

theorem create_isQueue : IsQueue (create : ListInstance A V) [] := ⟨rfl, rfl, fun _ h => absurd rfl h⟩

namespace IsQueue

variable {w : ListInstance A V} {xs ys : List (A × V)} {a : A} {v : V}

theorem ends (h : IsQueue w xs) : w.tail = none ↔ w.head = none := by
  rw [h.tail, h.chain.first, last_eq_none, first_eq_none]

/-- The node at which a walk over the list has arrived. -/
theorem read (h : IsQueue w (xs ++ (a, v) :: ys)) : w.items a = some ⟨v, first ys⟩ := by
  obtain ⟨r, -, -, next, ha, hy⟩ := segment_append.mp h.chain
  rw [ha, hy.first]

theorem free_iff (h : IsQueue w xs) : w.items a = none ↔ a ∉ addresses xs := by
  constructor
  · intro ha hm
    obtain ⟨x, hx, rfl⟩ := List.mem_map.mp hm
    obtain ⟨before, after, rfl⟩ := List.append_of_mem hx
    rw [h.read] at ha
    cases ha
  · intro hm
    by_contra ha
    exact hm (h.only a ha)

end IsQueue

/-! ## What each call does to the queue -/

section Specs

variable [DecidableEq A] {w : ListInstance A V} {xs ys : List (A × V)} {a : A} {v : V}

/-- The last steps of `unlink`, once the pointer to the node is moved. -/
theorem unlink_last {previous next : Option A} (ha : w.items a = some ⟨v, next⟩) :
    freeItem a (if some a = w.tail then { w with tail := previous } else w) =
      some ⟨Function.update w.items a none, w.head, if some a = w.tail then previous else w.tail⟩ := by
  by_cases ht : some a = w.tail
  · rw [if_pos ht, if_pos ht]
    simp only [freeItem, ha]
  · rw [if_neg ht, if_neg ht]
    simp only [freeItem, ha]

/-- A node is taken out, wherever it stands. -/
theorem unlink_spec (h : IsQueue w (xs ++ (a, v) :: ys)) :
    ∃ w', unlink (last xs) a (first ys) w = some w' ∧ IsQueue w' (xs ++ ys) := by
  have hn := h.chain.nodup
  have ht := last_unlink hn
  rw [← h.tail] at ht
  have honly : ∀ c, w.items c ≠ none → c ≠ a → c ∈ addresses (xs ++ ys) := by
    intro c hc hne
    have hm := h.only c hc
    simp only [addresses_append, addresses_cons, List.mem_append, List.mem_cons] at hm ⊢
    tauto
  rcases List.eq_nil_or_concat xs with rfl | ⟨init, ⟨b, u⟩, rfl⟩
  · -- it is the first one
    have ha := h.read
    refine ⟨⟨Function.update w.items a none, first ys, if some a = w.tail then last [] else w.tail⟩, ?_,
      h.chain.unlink_head, ht.symm, ?_⟩
    · simp only [unlink, last_nil, ne_eq, not_true_eq_false, if_false, Option.bind_eq_bind, Option.bind_some]
      exact unlink_last (w := { w with head := first ys }) ha
    · intro c hc
      rcases allocated_update hc with ⟨-, hc⟩ | ⟨hca, hc⟩
      · exact absurd rfl hc
      · exact honly c hc hca
  · -- it has one before it, whose `next` is moved
    rw [List.concat_eq_append] at h hn ht honly ⊢
    have ha := h.read
    have hb : w.items b = some ⟨u, some a⟩ := by
      have hr := h
      rw [List.append_assoc] at hr
      exact hr.read
    have hab : a ≠ b := by
      rintro rfl
      exact not_mem_unlinked hn (by simp)
    have ha' : Function.update w.items b (some ⟨u, first ys⟩) a = some ⟨v, first ys⟩ := by
      rw [Function.update_of_ne hab, ha]
    refine ⟨⟨Function.update (Function.update w.items b (some ⟨u, first ys⟩)) a none, w.head,
      if some a = w.tail then last (init ++ [(b, u)]) else w.tail⟩, ?_, h.chain.unlink, ht.symm, ?_⟩
    · rw [last_concat]
      simp only [unlink, ne_eq, reduceCtorEq, not_false_eq_true, if_true, setNext, hb, Option.bind_eq_bind, Option.bind_some]
      exact unlink_last (w := { w with items := Function.update w.items b (some ⟨u, first ys⟩) }) ha'
    · intro c hc
      rcases allocated_update hc with ⟨-, hc⟩ | ⟨hca, hc⟩
      · exact absurd rfl hc
      · rcases allocated_update hc with ⟨rfl, -⟩ | ⟨-, hc⟩
        · simp
        · exact honly c hc hca

theorem mallocItem_spec (h : IsQueue w xs) :
    mallocItem (some a) w = if a ∈ addresses xs then none else some a := by
  simp only [mallocItem, Option.filter_some, Option.isNone_iff_eq_none, h.free_iff]
  by_cases ha : a ∈ addresses xs
  · rw [if_pos ha, if_neg (not_not_intro ha)]
  · rw [if_neg ha, if_pos ha]

/-- A node is added behind the last one. -/
theorem add_spec (h : IsQueue w xs) (ha : a ∉ addresses xs) (v : V) :
    ∃ w', add .valid (some v) (some a) w = some (some a, w') ∧ IsQueue w' (xs ++ [(a, v)]) := by
  have hm : mallocItem (some a) w = some a := by rw [mallocItem_spec h, if_neg ha]
  rcases List.eq_nil_or_concat xs with rfl | ⟨init, ⟨b, u⟩, rfl⟩
  · have hh : w.head = none := h.chain.first
    refine ⟨⟨Function.update w.items a (some ⟨v, none⟩), some a, some a⟩, ?_, ?_, rfl, ?_⟩
    · simp only [add, hm, hh, if_true]
    · exact ⟨rfl, none, Function.update_self .., rfl⟩
    · intro c hc
      rcases allocated_update hc with ⟨rfl, -⟩ | ⟨-, hc⟩
      · simp
      · exact absurd (h.only c hc) List.not_mem_nil
  · rw [List.concat_eq_append] at h ha ⊢
    have hh : w.head ≠ none := by
      rw [h.chain.first]
      simp
    have ht : w.tail = some b := by rw [h.tail, last_concat]
    have hb : Function.update w.items a (some ⟨v, none⟩) b = some ⟨u, none⟩ := by
      rw [Function.update_of_ne, h.read, first_nil]
      rintro rfl
      exact ha (by simp)
    refine ⟨⟨Function.update (Function.update w.items a (some ⟨v, none⟩)) b (some ⟨u, some a⟩), w.head, some a⟩, ?_,
      h.chain.concat ha, (last_concat (a, v)).symm, ?_⟩
    · simp only [add, hm, if_neg hh, ht, setNext, hb, Option.map_some]
    · intro c hc
      rcases allocated_update hc with ⟨rfl, -⟩ | ⟨-, hc⟩
      · simp
      · rcases allocated_update hc with ⟨rfl, -⟩ | ⟨-, hc⟩
        · simp
        · rw [addresses_append]
          exact List.mem_append_left _ (h.only c hc)

/-- From the node that the loop has reached to the named one, which is taken out, or to the end. -/
theorem removeLoop_spec (item : A) (h : IsQueue w (xs ++ ys)) {fuel : Nat} (hf : ys.length ≤ fuel) :
    ∃ w', removeLoop item fuel (last xs) (first ys) w = some (if item ∈ addresses ys then 0 else failure, w') ∧
      IsQueue w' (xs ++ ys.filter (·.1 ≠ item)) ∧ (item ∉ addresses ys → w' = w) := by
  induction ys generalizing xs fuel with
  | nil => exact ⟨w, by cases fuel <;> rfl, h, fun _ => rfl⟩
  | cons y ys ih =>
    obtain ⟨a, v⟩ := y
    obtain ⟨fuel, rfl⟩ : ∃ n, fuel = n + 1 := ⟨fuel - 1, by simp only [List.length_cons] at hf; omega⟩
    simp only [List.length_cons, Nat.add_le_add_iff_right] at hf
    simp only [first_cons, removeLoop, h.read]
    by_cases he : a = item
    · subst he
      obtain ⟨w', hw, hq⟩ := unlink_spec h
      have hn := not_mem_unlinked h.chain.nodup
      have hrest : ys.filter (fun x => decide (x.1 ≠ a)) = ys := by
        rw [List.filter_eq_self]
        intro x hx
        rw [decide_eq_true_eq]
        rintro rfl
        exact hn (by rw [addresses_append]; exact List.mem_append_right _ (List.mem_map_of_mem hx))
      refine ⟨w', by simp [hw], ?_, fun hm => absurd List.mem_cons_self hm⟩
      rw [List.filter_cons_of_neg (by simp), hrest]
      exact hq
    · have h' : IsQueue w (xs ++ [(a, v)] ++ ys) := by
        rw [List.append_assoc]
        exact h
      obtain ⟨w', hw, hq, hu⟩ := ih h' hf
      rw [last_concat] at hw
      refine ⟨w', ?_, ?_, ?_⟩
      · simp only [if_neg he, hw, addresses_cons, List.mem_cons, Ne.symm he, false_or]
      · rw [List.filter_cons_of_pos (by simpa using he)]
        rw [List.append_assoc] at hq
        exact hq
      · intro hm
        exact hu fun hm' => hm (List.mem_cons_of_mem _ hm')

/-- From the node that the loop has reached to where the condition function stops it, or to the end. -/
theorem removeIfLoop_spec (condition : ConditionFunction V) (asked : List V) (h : IsQueue w (xs ++ ys)) {fuel : Nat}
    (hf : ys.length ≤ fuel) : ∃ w', removeIfLoop condition fuel asked (last xs) (first ys) w = some w' ∧
      IsQueue w' (xs ++ kept condition asked ys) := by
  induction ys generalizing xs asked fuel w with
  | nil => exact ⟨w, by cases fuel <;> rfl, h⟩
  | cons y ys ih =>
    obtain ⟨a, v⟩ := y
    obtain ⟨fuel, rfl⟩ : ∃ n, fuel = n + 1 := ⟨fuel - 1, by simp only [List.length_cons] at hf; omega⟩
    simp only [List.length_cons, Nat.add_le_add_iff_right] at hf
    simp only [first_cons, removeIfLoop, h.read, kept]
    by_cases hr : (condition asked v).1 = true
    · obtain ⟨w₁, hw₁, h₁⟩ := unlink_spec h
      simp only [if_pos hr, hw₁, Option.bind_eq_bind, Option.bind_some, List.nil_append]
      by_cases hc : (condition asked v).2 = true
      · simp only [if_pos hc]
        exact ih _ h₁ hf
      · simp only [if_neg hc]
        exact ⟨w₁, rfl, h₁⟩
    · simp only [if_neg hr]
      by_cases hc : (condition asked v).2 = true
      · simp only [if_pos hc]
        have h' : IsQueue w (xs ++ [(a, v)] ++ ys) := by
          rw [List.append_assoc]
          exact h
        have hi := ih (asked ++ [v]) h' hf
        rw [last_concat, List.append_assoc] at hi
        exact hi
      · simp only [if_neg hc]
        exact ⟨w, rfl, h⟩

/-- One call on a list that is the queue `xs`: it returns what the queue's operation returns,
    the list is the queue after it, and a call that fails writes nothing. -/
theorem perform_spec (h : IsQueue w xs) {fuel : Nat} (hf : xs.length ≤ fuel) (c : Call A V) :
    ∃ w', perform fuel w c = some ((queueStep xs c).1, w') ∧ IsQueue w' (queueStep xs c).2 ∧
      ((queueStep xs c).1.Fails → w' = w) := by
  cases c with
  | add list item answer =>
    cases list with
    | null => exact ⟨w, rfl, h, fun _ => rfl⟩
    | valid =>
      cases item with
      | none => exact ⟨w, rfl, h, fun _ => rfl⟩
      | some item =>
        cases answer with
        | none => exact ⟨w, rfl, h, fun _ => rfl⟩
        | some answer =>
          by_cases ha : answer ∈ addresses xs
          · simp only [perform, add, mallocItem_spec h, queueStep, if_pos ha]
            exact ⟨w, rfl, h, fun _ => rfl⟩
          · obtain ⟨w', hw, hq⟩ := add_spec h ha item
            simp only [perform, hw, queueStep, if_neg ha]
            exact ⟨w', rfl, hq, fun hn => absurd hn (by simp [Returned.Fails])⟩
  | remove list item =>
    cases list with
    | null => exact ⟨w, rfl, h, fun _ => rfl⟩
    | valid =>
      cases item with
      | none => exact ⟨w, rfl, h, fun _ => rfl⟩
      | some item =>
        have h' : IsQueue w ([] ++ xs) := h
        obtain ⟨w', hw, hq, hu⟩ := removeLoop_spec item h' hf
        rw [last_nil, ← h.chain.first] at hw
        refine ⟨w', by simp only [perform, remove, hw, queueStep, Option.map_some], hq, ?_⟩
        intro hn
        apply hu
        intro hm
        simp only [queueStep, if_pos hm, Returned.Fails] at hn
        exact hn rfl
  | removeIf list condition =>
    cases list with
    | null => exact ⟨w, rfl, h, fun _ => rfl⟩
    | valid =>
      cases condition with
      | none => exact ⟨w, rfl, h, fun _ => rfl⟩
      | some condition =>
        have h' : IsQueue w ([] ++ xs) := h
        obtain ⟨w', hw, hq⟩ := removeIfLoop_spec condition [] h' hf
        rw [last_nil, ← h.chain.first] at hw
        exact ⟨w', by simp only [perform, removeIf, hw, queueStep, Option.map_some], hq, fun hn => absurd rfl hn⟩

end Specs

/-! ## Whole runs -/

theorem kept_length (condition : ConditionFunction V) (asked : List V) (xs : List (A × V)) :
    (kept condition asked xs).length ≤ xs.length := by
  induction xs generalizing asked with
  | nil => exact Nat.le_refl _
  | cons x xs ih =>
    have hi := ih (asked ++ [x.2])
    simp only [kept, List.length_append, List.length_cons]
    split <;> split <;> simp only [List.length_nil, List.length_singleton] <;> omega

section Runs

variable [DecidableEq A] {w : ListInstance A V} {xs : List (A × V)}

/-- A call adds at most one item. -/
theorem queueStep_length (c : Call A V) : (queueStep xs c).2.length ≤ xs.length + 1 := by
  unfold queueStep
  split
  · split
    · exact Nat.le_succ _
    · rw [List.length_append, List.length_singleton]
  · exact Nat.le_succ _
  · exact Nat.le_succ_of_le (List.length_filter_le ..)
  · exact Nat.le_succ _
  · exact Nat.le_succ_of_le (kept_length ..)
  · exact Nat.le_succ _

theorem run_spec (cs : List (Call A V)) (h : IsQueue w xs) {fuel : Nat} (hf : xs.length + cs.length ≤ fuel) :
    ∃ steps w', run fuel cs w = some (steps, w') ∧ steps.map Step.returned = answers cs xs ∧ IsQueue w' (queue cs xs) ∧
      ∀ s ∈ steps, s.returned.Fails → s.after = s.before := by
  induction cs generalizing w xs with
  | nil => exact ⟨[], w, rfl, rfl, h, by simp⟩
  | cons c cs ih =>
    rw [List.length_cons] at hf
    obtain ⟨w₁, hw, hq, hu⟩ := perform_spec h (by omega : xs.length ≤ fuel) c
    have hl : (queueStep xs c).2.length ≤ xs.length + 1 := queueStep_length c
    obtain ⟨steps, w', hr, ha, hq', hu'⟩ := ih hq (by omega)
    refine ⟨⟨(queueStep xs c).1, w, w₁⟩ :: steps, w', ?_, ?_, hq', ?_⟩
    · simp only [run, hw, hr, Option.bind_eq_bind, Option.bind_some]
    · rw [List.map_cons, ha]
      rfl
    · intro s hs hfail
      rcases List.mem_cons.mp hs with rfl | hs
      · exact hu hfail
      · exact hu' s hs hfail

/-- The list of pending sends is a queue, whatever is called on it. -/
theorem run_queue (cs : List (Call A V)) (extra : Nat) :
    ∃ steps w, run (cs.length + extra) cs create = some (steps, w) ∧ steps.map Step.returned = answers cs [] ∧
      Segment w.items w.head (queue cs []) none ∧ w.tail = last (queue cs []) ∧ (w.tail = none ↔ w.head = none) ∧
      (∀ a, w.items a ≠ none → a ∈ addresses (queue cs [])) ∧
      ∀ s ∈ steps, s.returned.Fails → s.after = s.before := by
  have hf : ([] : List (A × V)).length + cs.length ≤ cs.length + extra := by simp
  obtain ⟨steps, w, hr, ha, hq, hu⟩ := run_spec cs create_isQueue hf
  exact ⟨steps, w, hr, ha, hq.chain, hq.tail, hq.ends, hq.only, hu⟩

/-- A node is added where the removed last one stood. -/
example : (run 3 [.add .valid (some 'a') (some 1), .add .valid (some 'b') (some 2), .remove .valid (some 2),
    .add .valid (some 'c') (some 3)] create).map (fun r => (r.2.head, r.2.tail, r.2.items 1)) =
      some (some 1, some 3, some ⟨'a', some 3⟩) := by decide

end Runs

end UMqtt.Crt.SinglyLinkedList
