import EdgeMapper.Proofs.Listening
import Mathlib.Data.List.Induction
/-!
# Who hears an event

Subscriptions change one at a time, by hand or from inside a delivery, and all of these changes form
one history. A listener hears an event exactly when somewhere in this history it was subscribed to a
topic that covers the event and was not taken out since; and it hears it once.
-/

namespace EdgeMapper

def Topic.Covers : Topic → Event → Prop
  | type t, event => event.type = t
  | edge id, event => event.id = some id
  | everything, _ => True

/-- The listener was subscribed to the topic, and neither it nor everyone was taken out since. -/
def Live (actions : List Action) (l : ListenerId) (topic : Topic) : Prop :=
  ∃ before after, actions = before ++ .subscribe l topic :: after ∧
    .unsubscribe l ∉ after ∧ .clear ∉ after

def Subscriptions.act (s : Subscriptions) : Action → Subscriptions
  | .subscribe l topic => s.subscribe l topic
  | .unsubscribe l => s.unsubscribe l
  | .clear => .clear
  | .write _ _ _ => s
  | .relabel _ _ => s

/-- The workspace has come about by these actions, of which some were deeds of listeners. -/
inductive History : Workspace → List Action → Prop where
  | new {w : Workspace} (h : w.subscriptions = {}) : History w []
  | act {w w' : Workspace} {actions : List Action} {a : Action} (h : History w actions)
    (ha : w.perform a = some w') : History w' (actions ++ [a])
  | emit {w w' : Workspace} {actions : List Action} {behaviour : Behaviour} {event : Event}
    {result : Except Failure Nat} (h : History w actions) (hsteady : behaviour.Steady)
    (hemit : Task.emit behaviour event w = (result, w')) :
    History w' (actions ++ Task.deedsOf behaviour event w)
  | elsewhere {w w' : Workspace} {actions : List Action} (h : History w actions)
    (hsame : w'.subscriptions = w.subscriptions) : History w' actions

section

variable {l : ListenerId} {topic : Topic} {actions : List Action}

theorem live_append_singleton (a : Action) :
    Live (actions ++ [a]) l topic ↔
      a = .subscribe l topic ∨ (a ≠ .unsubscribe l ∧ a ≠ .clear) ∧ Live actions l topic := by
  constructor
  · rintro ⟨before, after, hactions, hunsubscribe, hclear⟩
    rcases List.eq_nil_or_concat after with rfl | ⟨earlier, b, rfl⟩
    · obtain ⟨_, hlast⟩ := List.append_inj' hactions rfl
      exact .inl (List.singleton_inj.mp hlast)
    · rw [List.concat_eq_append] at hactions hunsubscribe hclear
      rw [← List.cons_append, ← List.append_assoc] at hactions
      obtain ⟨hinit, hlast⟩ := List.append_inj' hactions rfl
      obtain rfl := List.singleton_inj.mp hlast
      simp only [List.mem_append, List.mem_singleton, not_or] at hunsubscribe hclear
      exact .inr ⟨⟨Ne.symm hunsubscribe.2, Ne.symm hclear.2⟩,
        before, earlier, hinit, hunsubscribe.1, hclear.1⟩
  · rintro (rfl | ⟨⟨hunsubscribe, hclear⟩, before, after, rfl, hunsubscribed, hcleared⟩)
    · exact ⟨actions, [], rfl, by simp, by simp⟩
    · refine ⟨before, after ++ [a], by simp, ?_, ?_⟩
      · simp [hunsubscribed, Ne.symm hunsubscribe]
      · simp [hcleared, Ne.symm hclear]

theorem mem_listeners_act (s : Subscriptions) (a : Action) :
    l ∈ (s.act a).listeners topic ↔
      a = .subscribe l topic ∨ (a ≠ .unsubscribe l ∧ a ≠ .clear) ∧ l ∈ s.listeners topic := by
  cases a with
  | subscribe m other =>
      rw [Subscriptions.act, Subscriptions.listeners_subscribe, List.mem_append]
      by_cases htopic : topic = other
      · subst htopic
        simp [or_comm, @eq_comm _ l]
      · simp [htopic, Ne.symm htopic]
  | unsubscribe m =>
      rw [Subscriptions.act, Subscriptions.listeners_unsubscribe, List.mem_filter]
      simp [and_comm, @eq_comm _ l]
  | clear => simp [Subscriptions.act]
  | write edge key value => simp [Subscriptions.act]
  | relabel edge label => simp [Subscriptions.act]

theorem mem_listeners_iff_live (actions : List Action) :
    l ∈ (actions.foldl Subscriptions.act {}).listeners topic ↔ Live actions l topic := by
  induction actions using List.reverseRecOn with
  | nil =>
      refine ⟨fun h => ?_, ?_⟩
      · cases topic <;> cases h
      · rintro ⟨before, after, hactions, _⟩
        simp at hactions
  | append_singleton actions a ih =>
      rw [List.foldl_append, List.foldl_cons, List.foldl_nil, mem_listeners_act, ih,
        live_append_singleton]

end

theorem mem_audience {s : Subscriptions} {event : Event} {l : ListenerId} :
    l ∈ s.audience event ↔ ∃ topic : Topic, topic.Covers event ∧ l ∈ s.listeners topic := by
  rw [Subscriptions.audience, mem_firstOccurrences, List.mem_append, List.mem_append]
  constructor
  · rintro ((htype | heverything) | hedge)
    · exact ⟨.type event.type, rfl, htype⟩
    · exact ⟨.everything, trivial, heverything⟩
    · split at hedge
      · next id hid => exact ⟨.edge id, hid, hedge⟩
      · cases hedge
  · rintro ⟨topic, hcovers, hmem⟩
    cases topic with
    | type t =>
        obtain rfl := hcovers
        exact .inl (.inl hmem)
    | edge id =>
        have hid : event.id = some id := hcovers
        rw [hid]
        exact .inr hmem
    | everything => exact .inl (.inr hmem)

/-! ## Histories -/

theorem replays_subscriptions : Replays Workspace.subscriptions Subscriptions.act := by
  refine ⟨fun _ _ _ => rfl, fun _ _ => rfl, ?_⟩
  intro w w' a h
  cases a with
  | subscribe l topic => obtain rfl := Option.some.inj h; rfl
  | unsubscribe l => obtain rfl := Option.some.inj h; rfl
  | clear => obtain rfl := Option.some.inj h; rfl
  | write edge key value => obtain ⟨e, _, rfl⟩ := Option.map_eq_some_iff.mp h; rfl
  | relabel edge label => obtain ⟨e, _, rfl⟩ := Option.map_eq_some_iff.mp h; rfl

theorem History.subscriptions_eq {w : Workspace} {actions : List Action} (h : History w actions) :
    w.subscriptions = actions.foldl Subscriptions.act {} := by
  induction h with
  | new h => exact h
  | act _ ha ih => rw [replays_subscriptions.perform _ _ _ ha, ih, List.foldl_append]; rfl
  | @emit w w' actions behaviour event result _ _ hemit ih =>
      have hreplayed := replays_subscriptions.emit behaviour event w
      rw [hemit] at hreplayed
      calc w'.subscriptions
          = (Task.deedsOf behaviour event w).foldl Subscriptions.act w.subscriptions := hreplayed
        _ = (actions ++ Task.deedsOf behaviour event w).foldl Subscriptions.act {} := by
            rw [ih, List.foldl_append]
  | elsewhere _ hsame ih => exact hsame.trans ih

/-- An event that is emitted after any history is heard once by every listener that has a live
subscription to a topic that covers it, and by nobody else. Taking a listener out leaves the
subscriptions of all others as they were. -/
theorem heard_once_by_live_subscribers {w : Workspace} {actions : List Action}
    (hhistory : History w actions) {behaviour : Behaviour} (hsteady : behaviour.Steady)
    (event : Event) :
    (∃ (count : Nat) (w' : Workspace) (ls : List ListenerId),
      Task.emit behaviour event w = (.ok count, w') ∧
      w'.heard = w.heard ++ ls.map (fun l => (l, event)) ∧ ls.Nodup ∧
      ∀ l, l ∈ ls ↔ ∃ topic : Topic, topic.Covers event ∧ Live actions l topic) ∧
    ∀ gone w', w.perform (.unsubscribe gone) = some w' → ∀ topic,
      w'.subscriptions.listeners topic =
        (w.subscriptions.listeners topic).filter (· ≠ gone) := by
  constructor
  · obtain ⟨count, w', hemit, hheard⟩ := Task.emit_steady hsteady event w
    refine ⟨count, w', w.subscriptions.audience event, hemit, hheard, nodup_firstOccurrences _, ?_⟩
    intro l
    rw [mem_audience]
    simp only [hhistory.subscriptions_eq, mem_listeners_iff_live]
  · intro gone w' h topic
    obtain rfl := Option.some.inj h
    exact w.subscriptions.listeners_unsubscribe gone topic

/-- A listener with two subscriptions hears an event once; when another one takes it out while it fails
to handle that event, the next event does not reach it. -/
theorem heard_once_by_live_subscribers_until_taken_out :
    ∃ (w : Workspace) (actions : List Action) (behaviour : Behaviour) (event : Event),
      w.heard = [(⟨0⟩, event), (⟨1⟩, event)] ∧ History w actions ∧ behaviour.Steady ∧
        (∃ count w', Task.emit behaviour event w = (.ok count, w') ∧
          w'.heard = w.heard ++ [(⟨1⟩, event)]) ∧
        ∀ l, (∃ topic : Topic, topic.Covers event ∧ Live actions l topic) ↔ l = ⟨1⟩ := by
  let behaviour : Behaviour := fun _ l _ =>
    if l = ⟨1⟩ then ⟨[.unsubscribe ⟨0⟩], .failed⟩ else {}
  let event : Event := { type := .updated, id := some 7, start := 1, finish := 2, label := "KNOWS" }
  let twice : Subscriptions := (Subscriptions.subscribe {} ⟨0⟩ (.type .updated)).subscribe ⟨0⟩ (.edge 7)
  let w₀ : Workspace := { subscriptions := twice.subscribe ⟨1⟩ .everything }
  let w : Workspace := (Task.emit behaviour event w₀).2
  have hsteady : behaviour.Steady := by
    intro _ l _
    simp only [behaviour]
    split
    · nofun
    · nofun
  have hsubscribed : History w₀ [.subscribe ⟨0⟩ (.type .updated), .subscribe ⟨0⟩ (.edge 7),
      .subscribe ⟨1⟩ .everything] :=
    .act (.act (.act (.new (w := {}) rfl) rfl) rfl) rfl
  have hemitted : Task.emit behaviour event w₀ = ((Task.emit behaviour event w₀).1, w) := rfl
  have hhistory : History w _ := .emit hsubscribed hsteady hemitted
  have hbefore : w.heard = [(⟨0⟩, event), (⟨1⟩, event)] := by decide +kernel
  have hcalled : (Task.emit behaviour event w).2.heard = w.heard ++ [(⟨1⟩, event)] := by decide +kernel
  obtain ⟨⟨count, w', ls, hemit, hheard, _, hlive⟩, _⟩ :=
    heard_once_by_live_subscribers hhistory hsteady event
  simp only [hemit] at hcalled
  refine ⟨w, _, behaviour, event, hbefore, hhistory, hsteady, ⟨count, w', hemit, hcalled⟩, fun l => ?_⟩
  rw [hcalled, List.append_cancel_left_eq] at hheard
  obtain ⟨last, rfl, hlast⟩ := List.map_eq_singleton_iff.mp hheard.symm
  obtain rfl := congrArg Prod.fst hlast
  rw [← hlive, List.mem_singleton]

end EdgeMapper
