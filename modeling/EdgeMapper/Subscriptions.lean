import EdgeMapper.Event
/-!
# Subscriptions

Who listens to what: to all events of a type, to all events about one edge, or to everything. A
listener may subscribe as often as it likes; an event still reaches it once.
-/

namespace EdgeMapper

structure ListenerId where
  index : Nat
  deriving DecidableEq, Repr

inductive Topic where
  | type (t : EventType)
  | edge (id : Int)
  | everything
  deriving DecidableEq, Repr

structure Subscriptions where
  byType : OrderedMap EventType (List ListenerId) := ∅
  byEdge : OrderedMap Int (List ListenerId) := ∅
  everything : List ListenerId := []
  deriving DecidableEq

/-- Every element at its first place only. -/
def firstOccurrences {α : Type} [DecidableEq α] : List α → List α
  | [] => []
  | x :: rest => x :: (firstOccurrences rest).filter (· ≠ x)

section

variable {α : Type} [DecidableEq α]

@[simp] theorem mem_firstOccurrences {x : α} {xs : List α} : x ∈ firstOccurrences xs ↔ x ∈ xs := by
  induction xs with
  | nil => rfl
  | cons y rest ih =>
    by_cases h : x = y
    · simp [firstOccurrences, h]
    · simp [firstOccurrences, h, ih]

theorem nodup_firstOccurrences (xs : List α) : (firstOccurrences xs).Nodup := by
  induction xs with
  | nil => exact List.nodup_nil
  | cons y rest ih =>
    rw [firstOccurrences, List.nodup_cons]
    exact ⟨by simp, ih.filter _⟩

theorem firstOccurrences_filter (p : α → Bool) (xs : List α) :
    firstOccurrences (xs.filter p) = (firstOccurrences xs).filter p := by
  induction xs with
  | nil => rfl
  | cons y rest ih =>
    by_cases hy : p y = true
    · rw [List.filter_cons_of_pos hy, firstOccurrences, ih, firstOccurrences,
        List.filter_cons_of_pos hy, List.filter_filter, List.filter_filter]
      simp only [Bool.and_comm]
    · rw [List.filter_cons_of_neg hy, ih, firstOccurrences, List.filter_cons_of_neg hy,
        List.filter_filter]
      apply List.filter_congr
      intro x _
      by_cases hx : x = y
      · rw [hx, Bool.not_eq_true _ |>.mp hy, Bool.false_and]
      · simp [hx]

theorem pairwise_firstOccurrences (xs : List α) :
    (firstOccurrences xs).Pairwise fun x y => xs.idxOf x < xs.idxOf y := by
  induction xs with
  | nil => exact .nil
  | cons z rest ih =>
    have hplace (x : α) (hx : x ∈ (firstOccurrences rest).filter (· ≠ z)) :
        (z :: rest).idxOf x = rest.idxOf x + 1 := by
      have hne : x ≠ z := of_decide_eq_true (List.mem_filter.mp hx).2
      rw [List.idxOf_cons, beq_false_of_ne (Ne.symm hne), cond_false]
    rw [firstOccurrences, List.pairwise_cons]
    constructor
    · intro y hy
      rw [hplace y hy, List.idxOf_cons_self]
      exact Nat.succ_pos _
    · refine (ih.filter _).imp_of_mem fun {x y} hx hy hlt => ?_
      rw [hplace x hx, hplace y hy]
      exact Nat.succ_lt_succ hlt

theorem firstOccurrences_append_singleton (xs : List α) (x : α) :
    firstOccurrences (xs ++ [x]) =
      if x ∈ xs then firstOccurrences xs else firstOccurrences xs ++ [x] := by
  induction xs with
  | nil => rfl
  | cons y rest ih =>
    rw [List.cons_append, firstOccurrences, ih, firstOccurrences]
    by_cases hx : x = y
    · subst hx
      by_cases hmem : x ∈ rest
      · simp [hmem]
      · simp [hmem, List.filter_append]
    · by_cases hmem : x ∈ rest
      · simp [hx, hmem]
      · simp [hx, hmem, List.filter_append]

end

namespace Subscriptions

private def push {κ : Type} [DecidableEq κ] (table : OrderedMap κ (List ListenerId)) (key : κ)
    (l : ListenerId) : OrderedMap κ (List ListenerId) :=
  table.insert key ((table.get? key).getD [] ++ [l])

private def drop {κ : Type} [DecidableEq κ] (table : OrderedMap κ (List ListenerId))
    (l : ListenerId) : OrderedMap κ (List ListenerId) :=
  table.keys.foldl (fun t key => t.modify key (·.filter (· ≠ l))) table

def subscribe (s : Subscriptions) (l : ListenerId) : Topic → Subscriptions
  | .type t => { s with byType := push s.byType t l }
  | .edge id => { s with byEdge := push s.byEdge id l }
  | .everything => { s with everything := s.everything ++ [l] }

def unsubscribe (s : Subscriptions) (l : ListenerId) : Subscriptions where
  byType := drop s.byType l
  byEdge := drop s.byEdge l
  everything := s.everything.filter (· ≠ l)

def clear : Subscriptions := {}

/-- Those who subscribe to this topic, once for each time they did. -/
def listeners (s : Subscriptions) : Topic → List ListenerId
  | .type t => (s.byType.get? t).getD []
  | .edge id => (s.byEdge.get? id).getD []
  | .everything => s.everything

section

variable {κ : Type} [DecidableEq κ]

private theorem getD_get?_push (table : OrderedMap κ (List ListenerId)) (key other : κ)
    (l : ListenerId) :
    ((push table key l).get? other).getD [] =
      (table.get? other).getD [] ++ if other = key then [l] else [] := by
  rw [push, OrderedMap.get?_insert]
  split
  · next h => rw [h, Option.getD_some]
  · rw [List.append_nil]

private theorem getD_get?_drop (table : OrderedMap κ (List ListenerId)) (l : ListenerId)
    (other : κ) :
    ((drop table l).get? other).getD [] = ((table.get? other).getD []).filter (· ≠ l) := by
  -- the fold takes the listener out of the lists under `keys`, and of no other list
  have hfold (keys : List κ) (t : OrderedMap κ (List ListenerId)) :
      ((keys.foldl (fun t key => t.modify key (·.filter (· ≠ l))) t).get? other).getD [] =
        if other ∈ keys then ((t.get? other).getD []).filter (· ≠ l) else (t.get? other).getD [] := by
    induction keys generalizing t with
    | nil => simp
    | cons key rest ih =>
      rw [List.foldl_cons, ih, OrderedMap.get?_modify]
      by_cases h : other = key
      · subst h
        cases t.get? other <;> simp
      · simp [h]
  rw [drop, hfold]
  split
  · rfl
  · next h => rw [OrderedMap.get?_eq_none h]; rfl

end

theorem listeners_subscribe (s : Subscriptions) (l : ListenerId) (topic other : Topic) :
    (s.subscribe l topic).listeners other =
      s.listeners other ++ if other = topic then [l] else [] := by
  cases topic with
  | type t =>
    cases other with
    | type u => simpa [subscribe, listeners] using getD_get?_push s.byType t u l
    | _ => simp [subscribe, listeners]
  | edge id =>
    cases other with
    | edge i => simpa [subscribe, listeners] using getD_get?_push s.byEdge id i l
    | _ => simp [subscribe, listeners]
  | everything => cases other <;> simp [subscribe, listeners]

theorem listeners_unsubscribe (s : Subscriptions) (l : ListenerId) (topic : Topic) :
    (s.unsubscribe l).listeners topic = (s.listeners topic).filter (· ≠ l) := by
  cases topic with
  | type t => exact getD_get?_drop s.byType l t
  | edge id => exact getD_get?_drop s.byEdge l id
  | everything => rfl

@[simp] theorem listeners_clear (topic : Topic) : clear.listeners topic = [] := by
  cases topic <;> rfl

/-- The listeners that an event reaches, in the order in which they are called: those of its type,
those of everything, those of its edge, each once. -/
def audience (s : Subscriptions) (event : Event) : List ListenerId :=
  firstOccurrences (
    (s.byType.get? event.type).getD []
      ++ s.everything
      ++ match event.id with
        | some id => (s.byEdge.get? id).getD []
        | none => [])

end Subscriptions

end EdgeMapper
