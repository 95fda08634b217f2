import EdgeMapper.Proofs.Calls
import EdgeMapper.Proofs.WriteBack
/-!
# Label changes

No statement can write a label, so an edge that was given another label than the server knows has to
stay modified. Edits see to that, and so do all calls that create or delete edges, that fail, or that
find no property to write. There is one call that does not: an update that is accepted writes the
properties and then forgets everything that was recorded, the new label included. The main statement
says that this call alone forgets a label.
-/

namespace EdgeMapper

inductive Edge.Edit : Edge → Edge → Prop where
  | write (e : Edge) (now : Instant) (key : String) (value : Value) : Edit e (e.write now key value)
  | relabel (e : Edge) (now : Instant) (label : String) : Edit e (e.relabel now label)
  | turn (e : Edge) (direction : Cypher.Direction) : Edit e (e.turn direction)
  | resolve (e : Edge) (start finish : Option (NodeRef × Node)) : Edit e (e.resolve start finish).1
  | identify {e e' : Edge} {id : Option Int} (h : e.assignId id = .ok e') : Edit e e'
  | markModified (e : Edge) : Edit e e.markModified

def Workspace.Guards (w : Workspace) (name label : String) : Prop :=
  ∃ e, w.edge? name = some e ∧ (e.label ≠ label → e.ledger.modified = true)

/-- The edge of this name has another label and is not modified. -/
def Workspace.Forgets (w : Workspace) (name label : String) : Prop :=
  ∃ e, w.edge? name = some e ∧ e.label ≠ label ∧ e.ledger.modified = false

/-- A call that is accepted and writes properties of the edge while it has another label. -/
structure Overlooks (w : Workspace) (name label : String) (names : List String) (success : Bool) :
    Prop where
  accepted : success = true
  named : name ∈ names
  relabelled : ∃ e, w.edge? name = some e ∧ e.isDirty = true ∧ e.label ≠ label

/-- The edge is as it was decoded or created, and this is the label that the server knows. -/
inductive Begun (name : String) : Workspace → String → Prop where
  | decoded {w : Workspace} {created updated : Instant} {record : EdgeRecord}
    (h : w.edge? name = some (Edge.ofRecord created updated record)) : Begun name w record.label
  | created {behaviour : Behaviour} {v w : Workspace} {names : List String} {e : Edge}
    (he : v.edge? name = some e) (hcall : CreateCall behaviour v w names) (hname : name ∈ names) :
    Begun name w e.label

/-- A step in the life of an edge, with the label that the server knows for it. The calls may concern
any edges, and their listeners may do anything. -/
inductive LabelStep (name : String) : Workspace × String → Workspace × String → Prop where
  | edit {w w' : Workspace} {label : String} {e e' : Edge} (he : w.edge? name = some e)
    (he' : w'.edge? name = some e') (h : e.Edit e') : LabelStep name (w, label) (w', label)
  | update {w w' : Workspace} {label : String} {behaviour : Behaviour} {names : List String}
    {success : Bool} (hcall : UpdateCall behaviour w w' names success)
    (hkept : ¬ Overlooks w name label names success) : LabelStep name (w, label) (w', label)
  /-- An edge that is created anew has the label on the server that it has here. -/
  | create {w w' : Workspace} {label : String} {behaviour : Behaviour} {names : List String} {e : Edge}
    (he : w.edge? name = some e) (hcall : CreateCall behaviour w w' names) :
    LabelStep name (w, label) (w', if name ∈ names then e.label else label)
  | delete {w w' : Workspace} {label : String} {behaviour : Behaviour}
    (hcall : DeleteCall behaviour w w') : LabelStep name (w, label) (w', label)
  | emit {w : Workspace} {label : String} (behaviour : Behaviour) (event : Event) :
    LabelStep name (w, label) ((Task.emit behaviour event w).2, label)
  | elsewhere {w w' : Workspace} {label : String} (h : w'.edge? name = w.edge? name) :
    LabelStep name (w, label) (w', label)

section

variable {behaviour : Behaviour} {w w' v : Workspace} {name label : String} {e e' : Edge}

/-! ## Edits -/

theorem Edge.Edit.guards (h : e.Edit e') (hguard : e.label ≠ label → e.ledger.modified = true) :
    e'.label ≠ label → e'.ledger.modified = true := by
  cases h with
  | write now key value => exact fun _ => e.ledger.modified_write key value
  | relabel now l => exact fun _ => rfl
  | turn direction => exact hguard
  | resolve start finish =>
      obtain ⟨s, f, hresolved⟩ := e.resolve_fst start finish
      rw [hresolved]
      exact hguard
  | identify h =>
      obtain ⟨hlabel, hledger⟩ := Edge.assignId_eq_ok h
      rw [hlabel, hledger]
      exact hguard
  | markModified => exact fun _ => rfl

theorem Workspace.Edited.edit {a : Action} (h : Edited name a e e') : e' = e ∨ e.Edit e' := by
  cases h with
  | untouched => exact .inl rfl
  | write _ => exact .inr (.write e _ _ _)
  | relabel _ => exact .inr (.relabel e _ _)

theorem kept_guards (behaviour : Behaviour) (name label : String) :
    Workspace.Kept behaviour (·.Guards name label) := by
  refine ⟨fun _ _ _ h => h, fun _ _ h => h, ?_⟩
  intro _ _ _ a _ v v' hv hperform
  obtain ⟨e, he, hguard⟩ := hv
  obtain ⟨e', he', hedited⟩ := Workspace.perform_edge? hperform he
  rcases hedited.edit with rfl | hedit
  · exact ⟨e', he', hguard⟩
  · exact ⟨e', he', hedit.guards hguard⟩

theorem Workspace.Guards.of_edge? (h : w.Guards name label) (hsame : w'.edge? name = w.edge? name) :
    w'.Guards name label := by
  obtain ⟨e, he, hguard⟩ := h
  exact ⟨e, hsame.trans he, hguard⟩

/-! ## Calls -/

theorem Workspace.guards_of_resembles {p : Prop} (h : w.Resembles name e p)
    (hguard : e.label ≠ label → e.ledger.modified = true) (hp : p → e.label = label) :
    w.Guards name label := by
  obtain ⟨e', he', hlabel, hledger⟩ := h
  refine ⟨e', he', fun hne => ?_⟩
  rw [hlabel] at hne
  rw [hledger fun h => hne (hp h)]
  exact hguard hne

theorem Workspace.CommittedIf.forgets_iff {p : Prop} (h : v.CommittedIf name e p)
    (hguard : e.label ≠ label → e.ledger.modified = true) :
    v.Forgets name label ↔ p ∧ e.label ≠ label := by
  by_cases hp : p
  · have he := h.committed hp
    constructor
    · rintro ⟨e', he', hlabel, _⟩
      obtain rfl := Option.some.inj (he.symm.trans he')
      exact ⟨hp, hlabel⟩
    · rintro ⟨_, hlabel⟩
      exact ⟨e.commit, he, hlabel, rfl⟩
  · have he := h.same hp
    refine ⟨?_, fun h => absurd h.1 hp⟩
    rintro ⟨e', he', hlabel, hmodified⟩
    obtain rfl := Option.some.inj (he.symm.trans he')
    rw [hguard hlabel] at hmodified
    cases hmodified

theorem overlooks_iff {names : List String} {success : Bool} (he : w.edge? name = some e) :
    Overlooks w name label names success ↔
      (success = true ∧ name ∈ names ∧ e.isDirty = true) ∧ e.label ≠ label := by
  constructor
  · rintro ⟨haccepted, hnamed, f, hf, hdirty, hlabel⟩
    obtain rfl := Option.some.inj (he.symm.trans hf)
    exact ⟨⟨haccepted, hnamed, hdirty⟩, hlabel⟩
  · rintro ⟨⟨haccepted, hnamed, hdirty⟩, hlabel⟩
    exact ⟨haccepted, hnamed, e, he, hdirty, hlabel⟩

theorem Workspace.CommittedIf.exists_edge {p : Prop} (h : v.CommittedIf name e p) :
    ∃ e', v.edge? name = some e' := by
  by_cases hp : p
  · exact ⟨_, h.committed hp⟩
  · exact ⟨_, h.same hp⟩

theorem Workspace.CommittedIf.guards {p : Prop} (h : v.CommittedIf name e p)
    (hkept : ¬ v.Forgets name label) : v.Guards name label := by
  obtain ⟨e', he'⟩ := h.exists_edge
  exact ⟨e', he', fun hne => eq_true_of_ne_false fun hmodified => hkept ⟨e', he', hne, hmodified⟩⟩

theorem UpdateCall.forgets_iff {names : List String} {success : Bool}
    (h : UpdateCall behaviour w w' names success) (he : w.edge? name = some e)
    (hguard : e.label ≠ label → e.ledger.modified = true) :
    Announced behaviour (fun v =>
      v.CommittedIf name e (success = true ∧ name ∈ names ∧ e.isDirty = true) ∧
        (v.Forgets name label ↔ Overlooks w name label names success)) w' := by
  refine (h.announced he).imp fun v hv => ⟨hv, ?_⟩
  rw [hv.forgets_iff hguard, overlooks_iff he]

theorem CreateCall.guards {names : List String} (h : CreateCall behaviour w w' names)
    (he : w.edge? name = some e) (hguard : name ∉ names → e.label ≠ label → e.ledger.modified = true)
    (hlabel : name ∈ names → e.label = label) : w'.Guards name label := by
  refine ((h.announced he).imp fun v hv => ?_).kept (kept_guards behaviour name label)
  by_cases hname : name ∈ names
  · exact Workspace.guards_of_resembles hv (fun hne => absurd (hlabel hname) hne) hlabel
  · exact Workspace.guards_of_resembles hv (hguard hname) hlabel

theorem Begun.guards (h : Begun name w label) : w.Guards name label := by
  cases h with
  | decoded h => exact ⟨_, h, fun hne => absurd rfl hne⟩
  | created he hcall hname => exact hcall.guards he (absurd hname) fun _ => rfl

/-! ## Runs -/

theorem step_guards {p p' : Workspace × String} (h : LabelStep name p p')
    (hp : p.1.Guards name p.2) : p'.1.Guards name p'.2 := by
  cases h with
  | edit he he' hedit =>
      obtain ⟨f, hf, hguard⟩ := hp
      obtain rfl := Option.some.inj (he.symm.trans hf)
      exact ⟨_, he', hedit.guards hguard⟩
  | @update w w' label behaviour names success hcall hkept =>
      obtain ⟨e, he, hguard⟩ := hp
      refine ((hcall.forgets_iff he hguard).imp fun v hv => ?_).kept (kept_guards behaviour name label)
      exact hv.1.guards fun hforgets => hkept (hv.2.mp hforgets)
  | create he hcall =>
      obtain ⟨f, hf, hguard⟩ := hp
      obtain rfl := Option.some.inj (he.symm.trans hf)
      apply hcall.guards he
      · intro hname
        rw [if_neg hname]
        exact hguard
      · intro hname
        rw [if_pos hname]
  | @delete w w' label behaviour hcall =>
      refine (hcall.announced.imp fun v hv => ?_).kept (kept_guards behaviour name label)
      exact hp.of_edge? (by rw [Workspace.edge?, hv, Workspace.edge?])
  | emit behaviour event => exact Task.emit_kept (kept_guards behaviour name _) event hp
  | elsewhere hsame => exact hp.of_edge? hsame

theorem run_guards {p p' : Workspace × String} (h : Relation.ReflTransGen (LabelStep name) p p')
    (hp : p.1.Guards name p.2) : p'.1.Guards name p'.2 := by
  induction h with
  | refl => exact hp
  | tail _ hstep ih => exact step_guards hstep ih

def Behaviour.Ignores (behaviour : Behaviour) (name : String) : Prop :=
  behaviour.Spares name ∧ ∀ w l event label, .relabel name label ∉ (behaviour w l event).actions

theorem kept_forgets (h : behaviour.Ignores name) (p : Prop) :
    Workspace.Kept behaviour fun v => (∃ e, v.edge? name = some e) ∧ (v.Forgets name label ↔ p) := by
  refine ⟨fun _ _ _ h => h, fun _ _ h => h, ?_⟩
  rintro w l event a ha v v' ⟨⟨e, he⟩, hiff⟩ hperform
  obtain ⟨e', he', hedited⟩ := Workspace.perform_edge? hperform he
  cases hedited with
  | untouched =>
      have hsame : v'.Forgets name label ↔ v.Forgets name label := by
        rw [Workspace.Forgets, he', Workspace.Forgets, he]
      exact ⟨⟨e, he'⟩, hsame.trans hiff⟩
  | write hwrite => exact absurd (hwrite ▸ ha) (h.1 w l event _ _)
  | relabel hrelabel => exact absurd (hrelabel ▸ ha) (h.2 w l event _)

end

/-- As long as no call overlooks it, a label change keeps the edge modified; and a call that updates
edges forgets the change exactly if it overlooks it. -/
theorem label_changes_are_kept_unless_overlooked {name first label : String} {w₀ w : Workspace}
    (hbegun : Begun name w₀ first)
    (hrun : Relation.ReflTransGen (LabelStep name) (w₀, first) (w, label)) :
    w.Guards name label ∧
      ∀ behaviour w' names success, UpdateCall behaviour w w' names success →
        Announced behaviour (·.Forgets name label ↔ Overlooks w name label names success) w' ∧
          (behaviour.Ignores name →
            (w'.Forgets name label ↔ Overlooks w name label names success)) := by
  have hguards := run_guards hrun hbegun.guards
  refine ⟨hguards, ?_⟩
  intro behaviour w' names success hcall
  obtain ⟨e, he, hguard⟩ := hguards
  have hforgets := hcall.forgets_iff he hguard
  refine ⟨hforgets.imp fun _ hv => hv.2, fun hignores => ?_⟩
  exact ((hforgets.imp fun _ hv => ⟨hv.1.exists_edge, hv.2⟩).kept (kept_forgets hignores _)).2

/-- An edge is decoded, given another label and a property, and updated. -/
theorem label_change_overlooked_by_update :
    ∃ w₀ w w' : Workspace, Begun "knows" w₀ "KNOWS" ∧
      Relation.ReflTransGen (LabelStep "knows") (w₀, "KNOWS") (w, "KNOWS") ∧
      w.Guards "knows" "KNOWS" ∧ Overlooks w "knows" "KNOWS" ["knows"] true ∧
      (Writer.ofBinding "").update (fun _ _ _ => {}) "knows" w = (.ok true, w') ∧
      w'.Forgets "knows" "KNOWS" := by
  let silent : Behaviour := fun _ _ _ => {}
  let record : EdgeRecord := { id := 7, start := 1, finish := 2, label := "KNOWS", properties := ∅ }
  let e₀ : Edge := .ofRecord ⟨0⟩ ⟨0⟩ record
  let e₁ : Edge := e₀.relabel ⟨1⟩ "LIKES"
  let e₂ : Edge := e₁.write ⟨2⟩ "since" (.int 1)
  let answer : Row := .ofList [("rel", .record 82 [.int 7, .int 1, .int 2, .text "KNOWS", .map []])]
  let w (e : Edge) : Workspace :=
    { edges := .ofList [("knows", e)], connection := { upcoming := [.rows [answer]] } }
  have hedge (e : Edge) : (w e).edge? "knows" = some e := rfl
  obtain ⟨w', hupdate⟩ : ∃ w', (Writer.ofBinding "").update silent "knows" (w e₂) = (.ok true, w') :=
    ⟨_, rfl⟩
  have hbegun : Begun "knows" (w e₀) record.label := .decoded (hedge e₀)
  have hrun : Relation.ReflTransGen (LabelStep "knows") (w e₀, record.label) (w e₂, record.label) :=
    .tail (.single (.edit (hedge e₀) (hedge e₁) (.relabel e₀ ⟨1⟩ "LIKES")))
      (.edit (hedge e₁) (hedge e₂) (.write e₁ ⟨2⟩ "since" (.int 1)))
  obtain ⟨hguards, hcalls⟩ := label_changes_are_kept_unless_overlooked hbegun hrun
  have hoverlooked : Overlooks (w e₂) "knows" record.label ["knows"] true :=
    ⟨rfl, List.mem_singleton_self _, e₂, hedge e₂, rfl, by decide⟩
  have hsilent : silent.Ignores "knows" := ⟨nofun, nofun⟩
  have hforgets := ((hcalls silent w' ["knows"] true (.update hupdate)).2 hsilent).mpr hoverlooked
  exact ⟨w e₀, w e₂, w', hbegun, hrun, hguards, hoverlooked, hupdate, hforgets⟩

/-- An update that writes a property makes the edge forget that its label was never written. -/
theorem label_change_forgotten_by_update :
    ∃ (record : EdgeRecord) (w w₁ w₂ w' : Workspace),
      w.edge? "knows" = some (.ofRecord ⟨0⟩ ⟨0⟩ record) ∧ record.label = "KNOWS" ∧
      w.relabel "knows" "LIKES" = some w₁ ∧ w₁.writeProperty "knows" "since" (.int 1) = some w₂ ∧
      (Writer.ofBinding "").update (fun _ _ _ => {}) "knows" w₂ = (.ok true, w') ∧
      ∃ e, w'.edge? "knows" = some e ∧ e.label = "LIKES" ∧ e.ledger.modified = false := by
  let record : EdgeRecord := { id := 7, start := 1, finish := 2, label := "KNOWS", properties := ∅ }
  let answer : Row := .ofList [("rel", .record 82 [.int 7, .int 1, .int 2, .text "KNOWS", .map []])]
  let e₀ : Edge := .ofRecord ⟨0⟩ ⟨0⟩ record
  let e₁ : Edge := e₀.relabel ⟨1⟩ "LIKES"
  let e₂ : Edge := e₁.write ⟨2⟩ "since" (.int 1)
  let w (e : Edge) : Workspace :=
    { clock := ⟨[], e.updated⟩, edges := .ofList [("knows", e)],
      connection := { upcoming := [.rows [answer]] } }
  let w' : Workspace := ((Writer.ofBinding "").update (fun _ _ _ => {}) "knows" (w e₂)).2
  have hrelabel : (w e₀).relabel "knows" "LIKES" = some (w e₁) := rfl
  have hwrite : (w e₁).writeProperty "knows" "since" (.int 1) = some (w e₂) := rfl
  have hupdate : (Writer.ofBinding "").update (fun _ _ _ => {}) "knows" (w e₂) = (.ok true, w') := rfl
  have hedge : w'.edge? "knows" = some e₂.commit := rfl
  exact ⟨record, w e₀, w e₁, w e₂, w', rfl, rfl, hrelabel, hwrite, hupdate, e₂.commit, hedge, rfl, rfl⟩

end EdgeMapper
