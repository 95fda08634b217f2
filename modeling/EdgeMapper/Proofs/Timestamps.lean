import EdgeMapper.Proofs.InstantOrder
import EdgeMapper.Proofs.ListenerEdits
import EdgeMapper.Session
/-!
# Timestamps

An edge is built with two readings of the clock, the first of which says when it was created and the
second when it was updated. From then on only an edit of the edge takes a reading for it, whether the
caller edits it or a listener. So the time of the update is the last reading that was taken for an edit, and
when the clock never goes back the timestamps never do either. The main statement says so for every run,
of the moments and of their texts.
-/

namespace EdgeMapper

/-! ## Clocks -/

namespace Clock

def after (c : Clock) : Nat → Clock
  | 0 => c
  | n + 1 => (c.after n).read.2

def reading (c : Clock) (n : Nat) : Instant := (c.after n).read.1

/-- No reading is earlier than the one before it. -/
def Steady (c : Clock) : Prop := ∀ n, (c.reading n).micros ≤ (c.reading (n + 1)).micros

/-- The clock has been read any number of times in between. -/
def Reaches (c d : Clock) : Prop := ∃ n, d = c.after n

variable {c d : Clock}

theorem after_add (c : Clock) (n m : Nat) : c.after (n + m) = (c.after n).after m := by
  induction m with
  | zero => rfl
  | succ m ih => rw [Nat.add_succ, after, ih, after]

theorem last_after_succ (c : Clock) (n : Nat) : (c.after (n + 1)).last = c.reading n := by
  rw [after, reading, read]
  cases (c.after n).upcoming with
  | nil => rfl
  | cons t rest => rfl

theorem Steady.mono (h : c.Steady) {n m : Nat} (hle : n ≤ m) :
    (c.reading n).micros ≤ (c.reading m).micros := by
  induction hle with
  | refl => exact Int.le_refl _
  | step _ ih => exact Int.le_trans ih (h _)

theorem Steady.inEra (h : c.Steady) {n m : Nat} (hfirst : (c.reading 0).InEra)
    (hlast : (c.after n).last.InEra) (hm : m < n) : (c.reading m).InEra := by
  obtain ⟨k, rfl⟩ := Nat.exists_eq_add_of_lt hm
  rw [last_after_succ] at hlast
  have hlow := h.mono (Nat.zero_le m)
  have hhigh := h.mono (Nat.le_add_right m k)
  obtain ⟨hstart, _⟩ := hfirst
  obtain ⟨_, hend⟩ := hlast
  exact ⟨by omega, by omega⟩

theorem reading_succ (c : Clock) (n : Nat) : c.reading (n + 1) = c.read.2.reading n := by
  rw [reading, Nat.add_comm, after_add]
  rfl

theorem steady_of_pairwise {upcoming : List Instant} (last : Instant)
    (h : upcoming.Pairwise fun s t => s.micros ≤ t.micros) : Steady ⟨upcoming, last⟩ := by
  induction upcoming generalizing last with
  | nil =>
      have hidle (n : Nat) : (Clock.mk [] last).after n = ⟨[], ⟨last.micros + n⟩⟩ := by
        induction n with
        | zero => simp [after]
        | succ n ih => simp [after, ih, read, Int.add_assoc]
      intro n
      simp only [reading, hidle, read]
      omega
  | cons t rest ih =>
      obtain ⟨hhead, hrest⟩ := List.pairwise_cons.mp h
      intro n
      cases n with
      | zero =>
          cases rest with
          | nil => exact Int.le_add_one (Int.le_refl t.micros)
          | cons u rest => exact hhead u List.mem_cons_self
      | succ n =>
          rw [reading_succ, reading_succ]
          exact ih t hrest n

theorem Reaches.refl (c : Clock) : c.Reaches c := ⟨0, rfl⟩

theorem Reaches.read (c : Clock) : c.Reaches c.read.2 := ⟨1, rfl⟩

theorem Reaches.trans {e : Clock} (h : c.Reaches d) (h' : d.Reaches e) : c.Reaches e := by
  obtain ⟨n, rfl⟩ := h
  obtain ⟨m, rfl⟩ := h'
  exact ⟨n + m, (c.after_add n m).symm⟩

end Clock

/-! ## Steps -/

def Workspace.times (w : Workspace) (name : String) : Option (Instant × Instant) :=
  (w.edge? name).map fun e => (e.created, e.updated)

instance (name : String) : (a : Action) → Decidable (a.Edits name)
  | .write edge _ _ => inferInstanceAs (Decidable (edge = name))
  | .relabel edge _ => inferInstanceAs (Decidable (edge = name))
  | .subscribe _ _ => inferInstanceAs (Decidable False)
  | .unsubscribe _ => inferInstanceAs (Decidable False)
  | .clear => inferInstanceAs (Decidable False)

def Clock.pass (c : Clock) : Action → Clock
  | .write _ _ _ => c.read.2
  | .relabel _ _ => c.read.2
  | _ => c

/-- The readings that are taken to edit the edge of this name while these actions are performed. -/
def stamps (name : String) : List Action → Clock → List Instant
  | [], _ => []
  | a :: rest, c => (if a.Edits name then [c.read.1] else []) ++ stamps name rest (c.pass a)

def Command.stamps (c : Command) (behaviour : Behaviour) (name : String) (w : Workspace) : List Instant :=
  match c.prepare w with
  | (.ok items, v) => EdgeMapper.stamps name (Task.deeds behaviour c.type items v) v.clock
  | (.error _, _) => []

def Edge.Operation.Untimed : Edge.Operation → Prop
  | write _ _ _ => False
  | relabel _ _ => False
  | _ => True

inductive Session.Builds (name : String) (s s' : Session) : Prop where
  | ofIds {start finish label direction properties : Option Value}
    (h : SessionTask.relateIds name start finish label direction properties s = (.ok (), s'))
  | between {start finish : String} {label direction properties : Option Value}
    (h : SessionTask.relateNodes name start finish label direction properties s = (.ok (), s'))
  | decoded {value : Value} (h : SessionTask.decodeEdge name value s = (.ok (), s'))

/-- One thing that happens while the edge of this name is in use, and the readings that are taken for
edits of it. -/
inductive TimedStep (name : String) : Workspace → List Instant → Workspace → Prop where
  | write {s s' : Session} {key : String} {value : Value}
    (h : SessionTask.writeEdge name key value s = (.ok (), s')) :
    TimedStep name s.workspace [s.workspace.clock.read.1] s'.workspace
  | relabel {s s' : Session} {label : String} (h : SessionTask.relabelEdge name label s = (.ok (), s')) :
    TimedStep name s.workspace [s.workspace.clock.read.1] s'.workspace
  | perform {w w' : Workspace} {a : Action} (h : w.perform a = some w') :
    TimedStep name w (stamps name [a] w.clock) w'
  | operate {w : Workspace} {e : Edge} {op : Edge.Operation} (he : w.edge? name = some e)
    (hop : op.Untimed) : TimedStep name w [] (w.putEdge name (op.run e).1)
  /-- A call has done all that it does before its listeners are called. -/
  | prepare {w w' : Workspace} {c : Command} {result : Except Failure (List (String × List String))}
    (h : c.prepare w = (result, w')) : TimedStep name w [] w'
  | call {w w' : Workspace} {c : Command} {behaviour : Behaviour} {result : Except Failure Unit}
    (h : c.run behaviour w = (result, w')) : TimedStep name w (c.stamps behaviour name w) w'
  | emit {w w' : Workspace} {behaviour : Behaviour} {event : Event} {result : Except Failure Nat}
    (h : Task.emit behaviour event w = (result, w')) :
    TimedStep name w (stamps name (Task.deedsOf behaviour event w) w.clock) w'
  /-- Whatever leaves this edge alone. It may take readings. -/
  | elsewhere {w w' : Workspace} (hsame : w'.edge? name = w.edge? name)
    (hclock : w.clock.Reaches w'.clock) : TimedStep name w [] w'

inductive TimedRun (name : String) (w : Workspace) : List Instant → Workspace → Prop where
  | refl : TimedRun name w [] w
  | tail {taken more : List Instant} {v u : Workspace} (h : TimedRun name w taken v)
    (hstep : TimedStep name v more u) : TimedRun name w (taken ++ more) u

/-- The clock has been read `n` times, and the edge of this name shows the reading that was taken first
and the one that was taken when there had been `m`. -/
structure Workspace.Dated (w : Workspace) (name : String) (c : Clock) (n m : Nat) : Prop where
  clock : w.clock = c.after n
  times : w.times name = some (c.reading 0, c.reading m)
  taken : m < n

def Workspace.DatedLater (w : Workspace) (name : String) (c : Clock) (n m : Nat)
    (taken : List Instant) : Prop :=
  ∃ n' m', w.Dated name c n' m' ∧ n ≤ n' ∧ m ≤ m' ∧
    c.reading m' = taken.getLast?.getD (c.reading m)

section

variable {name : String} {c : Clock} {n m : Nat} {w w' v : Workspace} {taken more : List Instant}

/-! ## Tasks of a session -/

theorem SessionTask.bind_eq_ok {α β : Type} {x : SessionTask α} {f : α → SessionTask β} {b : β}
    {s s' : Session} (h : (x >>= f) s = (.ok b, s')) :
    ∃ a t, x s = (.ok a, t) ∧ f a t = (.ok b, s') := by
  change (do let (r, t) ← x s; (ExceptT.bindCont f r) t : Id _) = _ at h
  cases hx : x s with
  | mk r t =>
      simp only [hx] at h
      cases r with
      | ok a => exact ⟨a, t, rfl, h⟩
      | error failure => cases h

theorem SessionTask.node_eq_ok {other : String} {p : NodeRef × Node} {s s' : Session}
    (h : node other s = (.ok p, s')) : s' = s := by
  obtain ⟨t, u, hget, h⟩ := bind_eq_ok h
  obtain ⟨ht, rfl⟩ := Prod.mk.inj hget
  obtain rfl := Except.ok.inj ht
  cases href : s.nodeNames.get? other with
  | none =>
      simp only [href] at h
      cases h
  | some ref =>
      simp only [href] at h
      cases hnode : s.workspace.node? ref with
      | none =>
          simp only [hnode] at h
          cases h
      | some n =>
          simp only [hnode] at h
          exact (Prod.mk.inj h).2.symm

theorem SessionTask.edge_eq_ok {other : String} {e : Edge} {s s' : Session}
    (h : edge other s = (.ok e, s')) : s.workspace.edge? other = some e ∧ s' = s := by
  obtain ⟨hresult, hs⟩ := Prod.mk.inj h
  have hrun : Task.edge other s.workspace = (.ok e, (Task.edge other s.workspace).2) :=
    Prod.ext hresult rfl
  obtain ⟨he, hsame⟩ := Task.edge_eq_ok hrun
  exact ⟨he, hs.symm.trans (congrArg (fun w => { s with workspace := w }) hsame)⟩

theorem SessionTask.writeEdge_performs {key : String} {value : Value} {s s' : Session}
    (h : writeEdge name key value s = (.ok (), s')) :
    s.workspace.perform (.write name key value) = some s'.workspace := by
  obtain ⟨e, t, hedge, hnow⟩ := bind_eq_ok h
  obtain ⟨he, rfl⟩ := edge_eq_ok hedge
  obtain ⟨_, rfl⟩ := Prod.mk.inj hnow
  exact congrArg (Option.map _) he

theorem SessionTask.relabelEdge_performs {label : String} {s s' : Session}
    (h : relabelEdge name label s = (.ok (), s')) :
    s.workspace.perform (.relabel name label) = some s'.workspace := by
  obtain ⟨e, t, hedge, hnow⟩ := bind_eq_ok h
  obtain ⟨he, rfl⟩ := edge_eq_ok hedge
  obtain ⟨_, rfl⟩ := Prod.mk.inj hnow
  exact congrArg (Option.map _) he

/-! ## Edits -/

def playTimes (name : String) (s : Clock × Option (Instant × Instant)) (a : Action) :
    Clock × Option (Instant × Instant) :=
  (s.1.pass a, if a.Edits name then s.2.map fun t => (t.1, s.1.read.1) else s.2)

theorem replays_times (name : String) :
    Replays (fun w => (w.clock, w.times name)) (playTimes name) := by
  refine ⟨fun _ _ _ => rfl, fun _ _ => rfl, ?_⟩
  intro w w' a h
  have hedited {edge : String} {e e' : Edge} (he : w.edge? edge = some e)
      (hcreated : e'.created = e.created) (hupdated : e'.updated = w.clock.read.1) :
      (w.tick.2.putEdge edge e').times name =
        if edge = name then (w.times name).map fun t => (t.1, w.clock.read.1) else w.times name := by
    rw [Workspace.times, Workspace.edge?_putEdge]
    by_cases hname : edge = name
    · subst hname
      rw [if_pos rfl, if_pos rfl, Workspace.times, he]
      simp only [Option.map_some, hcreated, hupdated]
    · rw [if_neg (Ne.symm hname), if_neg hname]
      rfl
  cases a with
  | subscribe l topic => obtain rfl := Option.some.inj h; rfl
  | unsubscribe l => obtain rfl := Option.some.inj h; rfl
  | clear => obtain rfl := Option.some.inj h; rfl
  | write edge key value =>
      obtain ⟨e, he, rfl⟩ := Option.map_eq_some_iff.mp h
      exact Prod.ext rfl (hedited he rfl rfl)
  | relabel edge label =>
      obtain ⟨e, he, rfl⟩ := Option.map_eq_some_iff.mp h
      exact Prod.ext rfl (hedited he rfl rfl)

theorem pass_after (name : String) (c : Clock) (n : Nat) (a : Action) :
    ∃ k, n ≤ k ∧ (c.after n).pass a = c.after k ∧ (a.Edits name → n < k) := by
  cases a with
  | write edge key value => exact ⟨n + 1, by omega, rfl, fun _ => by omega⟩
  | relabel edge label => exact ⟨n + 1, by omega, rfl, fun _ => by omega⟩
  | subscribe l topic => exact ⟨n, Nat.le_refl n, rfl, nofun⟩
  | unsubscribe l => exact ⟨n, Nat.le_refl n, rfl, nofun⟩
  | clear => exact ⟨n, Nat.le_refl n, rfl, nofun⟩

theorem Workspace.Dated.datedLater (h : w.Dated name c n m) : w.DatedLater name c n m [] :=
  ⟨n, m, h, Nat.le_refl n, Nat.le_refl m, rfl⟩

theorem Workspace.DatedLater.append {n' m' : Nat} (hn : n ≤ n') (hm : m ≤ m')
    (htaken : c.reading m' = taken.getLast?.getD (c.reading m))
    (h : w.DatedLater name c n' m' more) : w.DatedLater name c n m (taken ++ more) := by
  obtain ⟨n'', m'', hdated, hn', hm', hmore⟩ := h
  refine ⟨n'', m'', hdated, Nat.le_trans hn hn', Nat.le_trans hm hm', ?_⟩
  rw [hmore, htaken, List.getLast?_append]
  cases more.getLast? with
  | none => rfl
  | some t => rfl

theorem datedLater_of_played {deeds : List Action} (hm : m < n)
    (h : (w.clock, w.times name) =
      deeds.foldl (playTimes name) (c.after n, some (c.reading 0, c.reading m))) :
    w.DatedLater name c n m (stamps name deeds (c.after n)) := by
  induction deeds generalizing n m with
  | nil =>
      obtain ⟨hclock, htimes⟩ := Prod.mk.inj h
      exact Workspace.Dated.datedLater ⟨hclock, htimes, hm⟩
  | cons a rest ih =>
      obtain ⟨k, hk, hpass, hread⟩ := pass_after name c n a
      rw [List.foldl_cons, playTimes, hpass] at h
      rw [stamps, hpass]
      -- an edit moves the time of the update to the reading that comes next, number `n`
      by_cases ha : a.Edits name
      · rw [if_pos ha] at h ⊢
        exact (ih (hread ha) h).append hk (Nat.le_of_lt hm) rfl
      · rw [if_neg ha] at h ⊢
        exact (ih (Nat.lt_of_lt_of_le hm hk) h).append hk (Nat.le_refl m) rfl

/-! ## What takes no reading for the edge -/

structure Workspace.SameTimes (name : String) (w w' : Workspace) : Prop where
  clock : w.clock.Reaches w'.clock
  times : w'.times name = w.times name

theorem Workspace.Dated.of_sameTimes (h : w.Dated name c n m) (hsame : SameTimes name w w') :
    w'.DatedLater name c n m [] := by
  obtain ⟨k, hk⟩ := hsame.clock
  have hclock : w'.clock = c.after (n + k) := by rw [hk, h.clock, Clock.after_add]
  have htimes : w'.times name = some (c.reading 0, c.reading m) := by rw [hsame.times, h.times]
  have htaken := h.taken
  exact ⟨n + k, m, ⟨hclock, htimes, by omega⟩, by omega, Nat.le_refl m, rfl⟩

theorem Workspace.times_of_stored {e e' : Edge} (he : w.edge? name = some e)
    (h : w.Stored name e' w') (hcreated : e'.created = e.created) (hupdated : e'.updated = e.updated) :
    w'.times = w.times := by
  funext other
  rw [times, times, h other]
  by_cases hname : other = name
  · rw [if_pos hname, hname, he, Option.map_some, Option.map_some, hcreated, hupdated]
  · rw [if_neg hname]

theorem Tried.times_eq {row : Row} {columns : Columns} {e e' : Edge} {result : Except Failure Unit}
    (h : Tried row columns w e result e') : e'.created = e.created ∧ e'.updated = e.updated := by
  cases h with
  | confirmed => exact ⟨rfl, rfl⟩
  | rejected h => cases h <;> exact ⟨rfl, rfl⟩

theorem Clock.reaches_applyCreated (name : String) (row : Row)
    (column startColumn finishColumn : String) :
    (Writer.applyCreated name row column startColumn finishColumn).Leads
      fun w w' => w.clock.Reaches w'.clock := by
  refine Writer.applyCreated_of_steps (@fun _ t => t.Leads _)
    (Task.leads_bind_of_trans fun _ _ _ h h' => h.trans h') (fun r w => ?_) (fun w => ?_)
    (fun e w => .refl w.clock) fun column w => ?_
  · rw [Task.ofExcept_apply]
    exact .refl w.clock
  · rw [Task.edge_apply]
    exact .refl w.clock
  · rw [Writer.fetched_apply]
    cases Writer.nodeRecord row column with
    | error fault => exact .refl w.clock
    | ok r =>
        cases r with
        | none => exact .refl w.clock
        | some record => exact .read w.clock

theorem Writer.times_applyCreated (name : String) (row : Row)
    (column startColumn finishColumn : String) :
    (applyCreated name row column startColumn finishColumn).Leads fun w w' => w'.times = w.times := by
  intro w
  cases hrun : applyCreated name row column startColumn finishColumn w with
  | mk result w' =>
      cases applyCreated_applied hrun with
      | unknown hsame => exact congrArg Workspace.times hsame
      | tried he hstored _ h =>
          obtain ⟨hcreated, hupdated⟩ := h.times_eq
          exact Workspace.times_of_stored he hstored hcreated hupdated

theorem times_commitAll {written : List (String × Edge)}
    (hfound : ∀ p ∈ written, w.edge? p.1 = some p.2) :
    Workspace.times { w with edges := commitAll written w.edges } = w.times := by
  funext other
  rw [Workspace.times, Workspace.edge?]
  by_cases hname : other ∈ written.map Prod.fst
  · obtain ⟨p, hp, rfl⟩ := List.mem_map.mp hname
    rw [get?_commitAll hfound hp w.edges, Workspace.times, hfound p hp]
    rfl
  · rw [get?_commitAll_of_not_mem hname w.edges]
    rfl

/-- A preparation may read the clock, but not for an edge. -/
theorem Command.respected_sameTimes (name : String) : Respected (Workspace.SameTimes name) where
  trans _ _ _ h h' := ⟨h.clock.trans h'.clock, h'.times.trans h.times⟩
  ask w _ _ := ⟨.refl w.clock, rfl⟩
  apply other row column startColumn finishColumn w :=
    ⟨Clock.reaches_applyCreated other row column startColumn finishColumn w,
      congrFun (Writer.times_applyCreated other row column startColumn finishColumn w) name⟩
  commit w _ hfound := ⟨.refl w.clock, congrFun (times_commitAll hfound) name⟩

theorem Edge.times_run (e : Edge) {op : Operation} (hop : op.Untimed) :
    (op.run e).1.created = e.created ∧ (op.run e).1.updated = e.updated := by
  have hattempt (id : Option Int) :
      (e.attempt (e.assignId id)).1.created = e.created ∧
        (e.attempt (e.assignId id)).1.updated = e.updated := by
    cases hassigned : e.assignId id with
    | error failure => exact ⟨rfl, rfl⟩
    | ok e' =>
        obtain ⟨rfl, _⟩ := assignId_cases hassigned
        exact ⟨rfl, rfl⟩
  cases op with
  | assign id => exact hattempt id
  | adopt value =>
      rw [Operation.run, adoptId]
      cases value.toId? with
      | none => exact ⟨rfl, rfl⟩
      | some id => exact hattempt (some id)
  | resolve start finish =>
      obtain ⟨s, f, hresolved⟩ := e.resolve_fst start finish
      rw [Operation.run, hresolved]
      exact ⟨rfl, rfl⟩
  | write now key value => exact hop.elim
  | relabel now label => exact hop.elim
  | turn direction => exact ⟨rfl, rfl⟩
  | markModified => exact ⟨rfl, rfl⟩
  | commit => exact ⟨rfl, rfl⟩

/-! ## Runs -/

theorem Workspace.Dated.replayed {deeds : List Action} (h : w.Dated name c n m)
    (hpart : (w'.clock, w'.times name) = deeds.foldl (playTimes name) (w.clock, w.times name)) :
    w'.DatedLater name c n m (stamps name deeds w.clock) := by
  rw [h.clock, h.times] at hpart
  rw [h.clock]
  exact datedLater_of_played h.taken hpart

theorem Workspace.Dated.edited {a : Action} (h : w.Dated name c n m)
    (hperform : w.perform a = some w') (ha : a.Edits name) :
    w'.DatedLater name c n m [w.clock.read.1] := by
  have hreading : stamps name [a] w.clock = [w.clock.read.1] := by
    rw [stamps, if_pos ha, stamps, List.append_nil]
  rw [← hreading]
  exact h.replayed ((replays_times name).perform w w' a hperform)

theorem Workspace.Dated.call {command : Command} {behaviour : Behaviour}
    {result : Except Failure Unit} (h : w.Dated name c n m)
    (hrun : command.run behaviour w = (result, w')) :
    w'.DatedLater name c n m (command.stamps behaviour name w) := by
  have hprepared := (Command.respected_sameTimes name).prepare command
  rw [Command.stamps]
  rcases Command.run_cases hrun with ⟨failure, _, hprepare⟩ | ⟨items, v, hprepare, hannounce⟩
  · rw [hprepare]
    exact h.of_sameTimes (hprepared.of_run hprepare)
  · rw [hprepare]
    -- the preparation may take readings, but the edge is dated by the listeners only
    obtain ⟨n', m', hdated, hn, hm, hsame⟩ := h.of_sameTimes (hprepared.of_run hprepare)
    have hpart := (replays_times name).announce behaviour command.type items v
    rw [hannounce] at hpart
    exact (hdated.replayed hpart).append hn hm hsame

theorem TimedStep.datedLater (hstep : TimedStep name w taken w') (h : w.Dated name c n m) :
    w'.DatedLater name c n m taken := by
  cases hstep with
  | write hwrite => exact h.edited (SessionTask.writeEdge_performs hwrite) rfl
  | relabel hrelabel => exact h.edited (SessionTask.relabelEdge_performs hrelabel) rfl
  | @perform _ _ a hperform => exact h.replayed ((replays_times name).perform w w' a hperform)
  | @operate _ e op he hop =>
      obtain ⟨hcreated, hupdated⟩ := e.times_run hop
      have htimes := Workspace.times_of_stored he (w.stored_putEdge name _) hcreated hupdated
      exact h.of_sameTimes ⟨.refl w.clock, congrFun htimes name⟩
  | @prepare _ _ command _ hprepare =>
      exact h.of_sameTimes (((Command.respected_sameTimes name).prepare command).of_run hprepare)
  | call hrun => exact h.call hrun
  | @emit _ _ behaviour event _ hemit =>
      have hpart := (replays_times name).emit behaviour event w
      rw [hemit] at hpart
      exact h.replayed hpart
  | elsewhere hsame hclock =>
      have htimes : w'.times name = w.times name := by rw [Workspace.times, hsame, Workspace.times]
      exact h.of_sameTimes ⟨hclock, htimes⟩

theorem TimedRun.datedLater (hrun : TimedRun name w taken w') (h : w.Dated name c n m) :
    w'.DatedLater name c n m taken := by
  induction hrun with
  | refl => exact h.datedLater
  | tail _ hstep ih =>
      obtain ⟨n', m', hdated, hn, hm, htaken⟩ := ih
      exact (hstep.datedLater hdated).append hn hm htaken

/-! ## Building -/

open SessionTask (onWorkspace)

theorem dated_of_readings {s s' : Session} {rest : Instant → Instant → SessionTask Unit}
    (hrest : ∀ created updated t t', rest created updated t = (.ok (), t') →
      t'.workspace.clock = t.workspace.clock ∧ t'.workspace.times name = some (created, updated))
    (h : (onWorkspace Task.now >>= fun created => onWorkspace Task.now >>= rest created) s =
      (.ok (), s')) : s'.workspace.Dated name s.workspace.clock 2 1 := by
  obtain ⟨created, t, hcreated, h⟩ := SessionTask.bind_eq_ok h
  obtain ⟨updated, u, hupdated, h⟩ := SessionTask.bind_eq_ok h
  obtain ⟨hfirst, ht⟩ := Prod.mk.inj hcreated
  obtain ⟨hsecond, hu⟩ := Prod.mk.inj hupdated
  obtain ⟨hclock, htimes⟩ := hrest created updated u s' h
  have hread : t.workspace.clock = s.workspace.clock.read.2 := by rw [← ht]; rfl
  have hagain : u.workspace.clock = t.workspace.clock.read.2 := by rw [← hu]; rfl
  have hcreated : s.workspace.clock.read.1 = created := Except.ok.inj hfirst
  have hupdated : t.workspace.clock.read.1 = updated := Except.ok.inj hsecond
  refine ⟨?_, ?_, by omega⟩
  · rw [hclock, hagain, hread]
    rfl
  · rw [htimes, ← hcreated, ← hupdated, hread]
    rfl

theorem putEdge_dated {created updated : Instant} {r : Except Failure Edge} {s s' : Session}
    (hread : ∀ e, r = .ok e → e.created = created ∧ e.updated = updated)
    (h : (onWorkspace (Task.ofExcept r) >>= fun e => onWorkspace (Task.putEdge name e)) s =
      (.ok (), s')) :
    s'.workspace.clock = s.workspace.clock ∧ s'.workspace.times name = some (created, updated) := by
  cases r with
  | error failure => cases h
  | ok e =>
      obtain ⟨_, rfl⟩ := Prod.mk.inj h
      obtain ⟨rfl, rfl⟩ := hread e rfl
      refine ⟨rfl, ?_⟩
      have hedge : (s.workspace.putEdge name e).edge? name = some e := by
        rw [Workspace.edge?_putEdge, if_pos rfl]
      exact congrArg (Option.map fun e => (e.created, e.updated)) hedge

theorem Session.Builds.dated {s s' : Session} (h : s.Builds name s') :
    s'.workspace.Dated name s.workspace.clock 2 1 := by
  cases h with
  | ofIds h => exact dated_of_readings (fun _ _ _ _ => putEdge_dated fun _ => Edge.times_ofIds) h
  | between h =>
      obtain ⟨start, t, hstart, hbuilt⟩ := SessionTask.bind_eq_ok h
      obtain ⟨finish, u, hfinish, hput⟩ := SessionTask.bind_eq_ok hbuilt
      rw [SessionTask.node_eq_ok hfinish, SessionTask.node_eq_ok hstart] at hput
      exact dated_of_readings (fun _ _ _ _ => putEdge_dated fun _ => Edge.times_between) hput
  | @decoded value h =>
      rw [SessionTask.decodeEdge] at h
      cases hvalue : EdgeRecord.ofValue value with
      | error fault =>
          rw [hvalue] at h
          cases h
      | ok record =>
          rw [hvalue] at h
          refine dated_of_readings (fun created updated t t' => ?_) h
          exact putEdge_dated (r := .ok (Edge.ofRecord created updated record)) (fun e he => by
            obtain rfl := Except.ok.inj he
            exact ⟨rfl, rfl⟩)

end

theorem Workspace.Dated.exists_edge {w : Workspace} {name : String} {c : Clock} {n m : Nat}
    (h : w.Dated name c n m) :
    ∃ e, w.edge? name = some e ∧ e.created = c.reading 0 ∧ e.updated = c.reading m := by
  obtain ⟨e, he, htimes⟩ := Option.map_eq_some_iff.mp h.times
  obtain ⟨hcreated, hupdated⟩ := Prod.mk.inj htimes
  exact ⟨e, he, hcreated, hupdated⟩

/-- Of two moments from 1970 to the end of 9999, the earlier one has the smaller text. An edge is built
with two readings of a clock that never goes back, and is followed through any run, at any moment of it and
at any later one. The first reading stays the time of its creation. The time of its update is the last
reading that was taken to edit it, or the second one when it was never edited. By their texts, that is never
before the creation, and it never goes back. -/
theorem timestamps_follow_the_edits :
    (∀ s t : Instant, s.InEra → t.InEra → (s.micros < t.micros ↔ s.text < t.text)) ∧
    ∀ (name : String) (s built : Session) (w w' : Workspace) (before after : List Instant),
      s.Builds name built → s.workspace.clock.Steady →
      TimedRun name built.workspace before w → TimedRun name w after w' →
      (s.workspace.clock.reading 0).InEra → w'.clock.last.InEra →
      ∃ e e' : Edge, w.edge? name = some e ∧ w'.edge? name = some e' ∧
        (e.created = s.workspace.clock.reading 0 ∧ e'.created = e.created) ∧
        (e.updated = before.getLast?.getD (s.workspace.clock.reading 1) ∧
          e'.updated = after.getLast?.getD e.updated) ∧
        e.created.text ≤ e.updated.text ∧ e.updated.text ≤ e'.updated.text := by
  refine ⟨fun s t hs ht => (Instant.text_lt_text_iff hs ht).symm, ?_⟩
  intro name s built w w' before after hbuilt hsteady hbefore hafter hfirst hlast
  obtain ⟨n, m, hdated, _, _, htaken⟩ := hbefore.datedLater hbuilt.dated
  obtain ⟨n', m', hdated', hn, hm, htaken'⟩ := hafter.datedLater hdated
  obtain ⟨e, he, hcreated, hupdated⟩ := hdated.exists_edge
  obtain ⟨e', he', hcreated', hupdated'⟩ := hdated'.exists_edge
  rw [hdated'.clock] at hlast
  have hera {k : Nat} (hk : k < n') : (s.workspace.clock.reading k).InEra :=
    hsteady.inEra hfirst hlast hk
  have hearlier := hdated.taken
  have hlater := hdated'.taken
  refine ⟨e, e', he, he', ⟨hcreated, hcreated'.trans hcreated.symm⟩, ⟨?_, ?_⟩, ?_, ?_⟩
  · rw [hupdated, htaken]
  · rw [hupdated', htaken', hupdated]
  · rw [hcreated, hupdated]
    exact Instant.text_le_text hfirst (hera (by omega)) (hsteady.mono (Nat.zero_le m))
  · rw [hupdated, hupdated']
    exact Instant.text_le_text (hera (by omega)) (hera hlater) (hsteady.mono hm)

/-- An edge is built in the last microsecond of a day, gets a property at midnight, and is relabelled by a
listener ten microseconds later, when it is created. -/
theorem timestamps_follow_the_edits_over_midnight :
    ∃ (s built : Session) (w w' : Workspace) (before after : List Instant) (e e' : Edge),
      s.Builds "knows" built ∧ s.workspace.clock.Steady ∧ TimedRun "knows" built.workspace before w ∧
      TimedRun "knows" w after w' ∧ w.edge? "knows" = some e ∧ w'.edge? "knows" = some e' ∧
      e.created.text = "2024-02-28T23:59:59.999999+00:00" ∧
      e.updated.text = "2024-02-29T00:00:00+00:00" ∧
      e'.updated.text = "2024-02-29T00:00:00.000010+00:00" ∧
      e.created.text ≤ e.updated.text ∧ e.updated.text ≤ e'.updated.text := by
  let behaviour : Behaviour := fun _ _ _ => ⟨[.relabel "knows" "LIKES"], .returned⟩
  let answer : Row := .ofList [("rel", .record 82 [.int 7, .int 1, .int 2, .text "KNOWS", .map []])]
  let clock : Clock :=
    { upcoming := [⟨1709164799999999⟩, ⟨1709164799999999⟩, ⟨1709164800000000⟩, ⟨1709164800000010⟩] }
  let s : Session :=
    { workspace :=
      { clock := clock, subscriptions := Subscriptions.subscribe {} ⟨0⟩ .everything,
        connection := { upcoming := [.rows [answer]] } } }
  let task : SessionTask Unit :=
    SessionTask.relateIds "knows" (some (.int 1)) (some (.int 2)) (some (.text "KNOWS")) none none
  let built : Session := (task s).2
  let edit : SessionTask Unit := SessionTask.writeEdge "knows" "since" (.int 1)
  let edited : Session := (edit built).2
  let w : Workspace := edited.workspace
  let call : Except Failure Unit × Workspace := (Command.create {} "knows").run behaviour w
  have hran : task s = (.ok (), built) := Prod.ext (by decide +kernel) rfl
  have hwritten : edit built = (.ok (), edited) := Prod.ext (by decide +kernel) rfl
  have hcalled : (Command.create {} "knows").run behaviour w = (call.1, call.2) := (Prod.eta _).symm
  have hbuilt : s.Builds "knows" built := .ofIds hran
  have hsteady : s.workspace.clock.Steady := Clock.steady_of_pairwise ⟨0⟩ (by decide)
  have hbefore : TimedRun "knows" built.workspace _ w := .tail .refl (.write hwritten)
  have hafter : TimedRun "knows" w _ call.2 := .tail .refl (.call hcalled)
  have hfirst : (s.workspace.clock.reading 0).InEra := ⟨by decide, by decide⟩
  have hlast : call.2.clock.last = ⟨1709164800000010⟩ := by decide +kernel
  have hera : call.2.clock.last.InEra := by
    rw [hlast]
    exact ⟨by decide, by decide⟩
  obtain ⟨e, e', he, he', ⟨hcreated, _⟩, ⟨hupdated, hupdated'⟩, hordered, hforward⟩ :=
    timestamps_follow_the_edits.2 "knows" s built w call.2 _ _ hbuilt hsteady hbefore hafter hfirst hera
  have hedit : built.workspace.clock.read.1 = ⟨1709164800000000⟩ := by decide +kernel
  have hlistener : (Command.create {} "knows").stamps behaviour "knows" w = [⟨1709164800000010⟩] := by
    decide +kernel
  rw [List.nil_append, List.getLast?_singleton, Option.getD_some, hedit] at hupdated
  rw [List.nil_append, hlistener, List.getLast?_singleton, Option.getD_some] at hupdated'
  refine ⟨s, built, w, call.2, _, _, e, e', hbuilt, hsteady, hbefore, hafter, he, he', ?_, ?_, ?_, hordered,
    hforward⟩
  · rw [hcreated]
    decide +kernel
  · rw [hupdated]
    decide +kernel
  · rw [hupdated']
    decide +kernel

end EdgeMapper
