import EdgeMapper.OrderedMap
import EdgeMapper.Yaml.Graph
import EdgeMapper.Yaml.Token
/-!
# Reading tokens

The graph that tokens spell. An anchor names a node from the moment it begins, so that a collection can
be referred to from inside itself. A text holds one document, or none.
-/

namespace EdgeMapper.Yaml

namespace Graph

/-- How far the tokens have been read, and what has come of them. -/
structure Progress where
  tokens : List Token
  taken : Nat := 0
  stop : Option Stop
  graph : Graph := {}
  anchors : OrderedMap String NodeId := ∅
  handles : OrderedMap String String := ∅

abbrev Grammar (α : Type) := StateT Progress (Except Fault) α

namespace Grammar

private def fail {α : Type} (fault : Fault) : Grammar α := throw fault

private def peek : Grammar (Option Token) := do
  let p ← get
  match p.stop with
  | some stop => if stop.reach ≤ p.taken then fail stop.fault else pure p.tokens.head?
  | none => pure p.tokens.head?

private def drop : Grammar Unit :=
  modify fun p => { p with tokens := p.tokens.tail, taken := p.taken + 1 }

private def accept (t : Token) : Grammar Bool := do
  if (← peek) = some t then
    drop
    pure true
  else pure false

private def isNext (ts : List Token) : Grammar Bool := do
  pure (match ← peek with
    | some t => ts.contains t
    | none => false)

private def add (n : Node) : Grammar NodeId :=
  modifyGet fun p =>
    let (id, graph) := p.graph.add n
    (id, { p with graph := graph })

private def setContent (id : NodeId) (c : Content) : Grammar Unit :=
  modify fun p => { p with graph := p.graph.setContent id c }

private def empty : Grammar NodeId := add .empty

/-! ## Properties of a node -/

private def anchor? : Grammar (Option String) := do
  match ← peek with
  | some (.anchor name) => do
    drop
    pure (some name)
  | _ => pure none

private def tag? : Grammar (Option (Option String × String)) := do
  match ← peek with
  | some (.tag handle suffix) => do
    drop
    pure (some (handle, suffix))
  | _ => pure none

private def tagName : Option (Option String × String) → Grammar (Option String)
  | none => pure none
  | some (none, suffix) => pure (some suffix)
  | some (some handle, suffix) => do
    match (← get).handles.get? handle with
    | some expansion => pure (some (expansion ++ suffix))
    | none => fail .badStructure

private def properties : Grammar (Option String × Option String) := do
  match ← anchor? with
  | some anchor => do
    let tag ← tag?
    pure (some anchor, ← tagName tag)
  | none => do
    let tag ← tag?
    let anchor ← match tag with
      | some _ => anchor?
      | none => pure none
    pure (anchor, ← tagName tag)

/-- The tag of a collection: without one, or with the lone mark, it is the usual one. -/
private def collectionTag (usual : Tag) (tag : Option String) : Tag :=
  match tag with
  | none => usual
  | some "!" => usual
  | some name => Tag.ofName name

private def scalarTag (tag : Option String) (text : String) (plain : Bool) : Tag :=
  match tag with
  | none => if plain then Tag.ofPlain text else .text
  | some "!" => Tag.ofPlain text
  | some name => Tag.ofName name

private def addNamed (anchor : Option String) (n : Node) : Grammar NodeId := do
  let id ← add n
  match anchor with
  | none => pure ()
  | some name => modify fun p => { p with anchors := p.anchors.insert name id }
  pure id

private def requireNew (anchor : Option String) : Grammar Unit := do
  match anchor with
  | none => pure ()
  | some name => if (← get).anchors.contains name then fail .badReference else pure ()

private def refer (name : String) : Grammar NodeId := do
  match (← get).anchors.get? name with
  | some id => pure id
  | none => fail .badReference

private def sequence (anchor : Option String) (tag : Tag) (items : Grammar (List NodeId)) :
    Grammar NodeId := do
  let id ← addNamed anchor ⟨tag, .sequence []⟩
  setContent id (.sequence (← items))
  pure id

private def mapping (anchor : Option String) (tag : Tag)
    (entries : Grammar (List (NodeId × NodeId))) : Grammar NodeId := do
  let id ← addNamed anchor ⟨tag, .mapping []⟩
  setContent id (.mapping (← entries))
  pure id

/-! ## Nodes

The recursion runs on fuel: along every branch of it each second call takes a token. -/

structure Place where
  block : Bool
  /-- A sequence may begin without being indented. -/
  flat : Bool

/-- A node without content has to have an anchor or a tag. -/
private def unlessBare (anchor tag : Option String) : Grammar NodeId :=
  if anchor.isNone ∧ tag.isNone then fail .badStructure
  else addNamed anchor ⟨scalarTag tag "" true, .scalar ""⟩

mutual

private def node (place : Place) : Nat → Grammar NodeId
  | 0 => fail .badStructure
  | fuel + 1 => do
    match ← peek with
    | some (.reference name) => do
      drop
      refer name
    | _ => do
      let (anchor, tag) ← properties
      let next ← peek
      requireNew anchor
      let sequenceTag := collectionTag .sequence tag
      let mappingTag := collectionTag .mapping tag
      match next with
      | some .entry =>
        if place.flat then sequence anchor sequenceTag (flatItems fuel) else unlessBare anchor tag
      | some (.scalar text plain) => do
        drop
        addNamed anchor ⟨scalarTag tag text plain, .scalar text⟩
      | some .flowSequenceStart => do
        drop
        sequence anchor sequenceTag (flowItems true fuel)
      | some .flowMappingStart => do
        drop
        mapping anchor mappingTag (flowEntries true fuel)
      | some .sequenceStart =>
        if place.block then do
          drop
          sequence anchor sequenceTag (blockItems fuel)
        else unlessBare anchor tag
      | some .mappingStart =>
        if place.block then do
          drop
          mapping anchor mappingTag (blockEntries fuel)
        else unlessBare anchor tag
      | _ => unlessBare anchor tag

private def nodeUnless (stops : List Token) (place : Place) : Nat → Grammar NodeId
  | 0 => fail .badStructure
  | fuel + 1 => do if ← isNext stops then empty else node place fuel

private def blockItems : Nat → Grammar (List NodeId)
  | 0 => fail .badStructure
  | fuel + 1 => do
    if ← accept .entry then
      let item ← nodeUnless [.entry, .blockEnd] ⟨true, false⟩ fuel
      pure (item :: (← blockItems fuel))
    else if ← accept .blockEnd then pure []
    else fail .badStructure

private def flatItems : Nat → Grammar (List NodeId)
  | 0 => fail .badStructure
  | fuel + 1 => do
    if ← accept .entry then
      let item ← nodeUnless [.entry, .key, .value, .blockEnd] ⟨true, false⟩ fuel
      pure (item :: (← flatItems fuel))
    else pure []

private def blockEntries : Nat → Grammar (List (NodeId × NodeId))
  | 0 => fail .badStructure
  | fuel + 1 => do
    let stops := [Token.key, .value, .blockEnd]
    let value : Grammar NodeId := do
      if ← accept .value then nodeUnless stops ⟨true, true⟩ fuel else empty
    if ← accept .key then
      let k ← nodeUnless stops ⟨true, true⟩ fuel
      let v ← value
      pure ((k, v) :: (← blockEntries fuel))
    else if ← accept .blockEnd then pure []
    else fail .badStructure

private def flowItems (first : Bool) : Nat → Grammar (List NodeId)
  | 0 => fail .badStructure
  | fuel + 1 => do
    if ← accept .flowSequenceEnd then pure []
    else do
      if !first then
        if !(← accept .flowEntry) then fail .badStructure
      if ← accept .key then
        let entry : Grammar (List (NodeId × NodeId)) := do
          let k ← nodeUnless [.value, .flowEntry, .flowSequenceEnd] ⟨false, false⟩ fuel
          let v ← if ← accept .value then
              nodeUnless [.flowEntry, .flowSequenceEnd] ⟨false, false⟩ fuel
            else empty
          pure [(k, v)]
        let item ← mapping none .mapping entry
        pure (item :: (← flowItems false fuel))
      else if ← accept .flowSequenceEnd then pure []
      else do
        let item ← node ⟨false, false⟩ fuel
        pure (item :: (← flowItems false fuel))

private def flowEntries (first : Bool) : Nat → Grammar (List (NodeId × NodeId))
  | 0 => fail .badStructure
  | fuel + 1 => do
    if ← accept .flowMappingEnd then pure []
    else do
      if !first then
        if !(← accept .flowEntry) then fail .badStructure
      if ← accept .key then
        let k ← nodeUnless [.value, .flowEntry, .flowMappingEnd] ⟨false, false⟩ fuel
        let v ← if ← accept .value then
            nodeUnless [.flowEntry, .flowMappingEnd] ⟨false, false⟩ fuel
          else empty
        pure ((k, v) :: (← flowEntries false fuel))
      else if ← accept .flowMappingEnd then pure []
      else do
        let k ← node ⟨false, false⟩ fuel
        let v ← empty
        pure ((k, v) :: (← flowEntries false fuel))

end

/-! ## Documents -/

private def directives : Nat → Bool → Grammar Unit
  | 0, _ => fail .badStructure
  | fuel + 1, versioned => do
    match ← peek with
    | some (.version major _) =>
      if versioned ∨ major ≠ 1 then fail .badStructure
      else do
        drop
        directives fuel true
    | some (.tagHandle handle expansion) => do
      if (← get).handles.contains handle then fail .badStructure
      else do
        drop
        modify fun p => { p with handles := p.handles.insert handle expansion }
        directives fuel versioned
    | some .otherDirective => do
      drop
      directives fuel versioned
    | _ => pure ()

private def standardHandles : List (String × String) := [("!", "!"), ("!!", Tag.namespacePrefix)]

private def addStandardHandles : Grammar Unit :=
  modify fun p =>
    { p with handles := standardHandles.foldl (fun handles (handle, expansion) =>
        if handles.contains handle then handles else handles.insert handle expansion) p.handles }

private def dropMarkers : Nat → Grammar Unit
  | 0 => fail .badStructure
  | fuel + 1 => do if ← accept .documentEnd then dropMarkers fuel else pure ()

/-- Nothing but end markers may follow the document. What does follow is read up to where it is clear
whether it is another document. -/
private def finish (fuel : Nat) : Grammar Unit := do
  dropMarkers fuel
  match ← peek with
  | none => pure ()
  | some _ => do
    modify fun p => { p with handles := ∅ }
    directives fuel false
    let _ ← peek
    fail .badStructure

private def explicitDocument (fuel : Nat) : Grammar NodeId := do
  directives fuel false
  addStandardHandles
  if ← accept .documentStart then
    match ← peek with
    | none => empty
    | some .documentStart => empty
    | some .documentEnd => empty
    | some .otherDirective => empty
    | some (.version ..) => empty
    | some (.tagHandle ..) => empty
    | some _ => node ⟨true, false⟩ fuel
  else fail .badStructure

private def document (fuel : Nat) : Grammar (Option NodeId) := do
  let root ← match ← peek with
    | none => pure none
    | some .documentStart => do pure (some (← explicitDocument fuel))
    | some .otherDirective => do pure (some (← explicitDocument fuel))
    | some (.version ..) => do pure (some (← explicitDocument fuel))
    | some (.tagHandle ..) => do pure (some (← explicitDocument fuel))
    | some _ => do
      addStandardHandles
      pure (some (← node ⟨true, false⟩ fuel))
  finish fuel
  pure root

end Grammar

def ofScan (scan : Scan) : Except Fault (Graph × Option NodeId) :=
  ((Grammar.document (4 * scan.tokens.length + 8)).run
    { tokens := scan.tokens, stop := scan.stop }).map fun (root, p) => (p.graph, root)

end Graph

end EdgeMapper.Yaml
