import DotDiagram.Proofs.Workspace.Resolution

/-! Outlines in preorder. A mind map is drawn by planting the rows of its outline one after
another, each with an edge from the row above it. -/

namespace DotDiagram

/-- An entry of an outline, where it stands, and the node that is to be made for it. -/
structure Row where
  node : NodeId
  parent : Option NodeId
  depth : Nat
  entry : Outline

namespace Row

def label (row : Row) : String := row.entry.label

/-- Only entries that have a topic and a branch above them, and nothing below, are leaves. -/
def style (row : Row) : NodeStyle :=
  match row.depth, row.entry.children with
  | 0, _ => MindLevel.topic.style
  | 1, _ => MindLevel.branch.style
  | _ + 2, [] => MindLevel.leaf.style
  | _ + 2, _ :: _ => MindLevel.branch.style

/-- One row is that of an entry right below the other's. -/
structure Above (above row : Row) : Prop where
  parent : row.parent = some above.node
  depth : row.depth = above.depth + 1
  entry : row.entry ∈ above.entry.children

/-- Named and labelled alike. -/
def toNode (a : Ambient) (row : Row) : Node :=
  ⟨row.label, (a.nodeLayers [row.style] (.ofList [("label", row.label)])).resolve, true⟩

def toEdge? (a : Ambient) (row : Row) : Option Edge :=
  row.parent.map fun parent => ⟨parent, row.node, (a.edgeLayers [branchEdge] .empty).resolve, true⟩

end Row

namespace Outline

mutual

/-- An outline in preorder. Its nodes are numbered from `next` on. -/
def rowsFrom (parent : Option NodeId) (depth next : Nat) : Outline → List Row
  | .mk label children =>
    ⟨⟨next⟩, parent, depth, .mk label children⟩ :: rowsBelow ⟨next⟩ (depth + 1) (next + 1) children

def rowsBelow (parent : NodeId) (depth next : Nat) : List Outline → List Row
  | [] => []
  | entry :: rest =>
    let rows := entry.rowsFrom (some parent) depth next
    rows ++ rowsBelow parent depth (next + rows.length) rest

end

def rows (outline : Outline) (next : Nat) : List Row := outline.rowsFrom none 0 next

mutual

/-- The labels of an outline in preorder. -/
def labels : Outline → List String
  | .mk label children => label :: labelsOf children

def labelsOf : List Outline → List String
  | [] => []
  | entry :: rest => entry.labels ++ labelsOf rest

end

mutual

theorem labels_rowsFrom (parent : Option NodeId) (depth next : Nat) (entry : Outline) :
    (entry.rowsFrom parent depth next).map Row.label = entry.labels := by
  obtain ⟨label, children⟩ := entry
  rw [rowsFrom, List.map_cons, labels_rowsBelow _ _ _ children, labels]
  rfl

theorem labels_rowsBelow (parent : NodeId) (depth next : Nat) (entries : List Outline) :
    (rowsBelow parent depth next entries).map Row.label = labelsOf entries := by
  cases entries with
  | nil => rfl
  | cons entry rest =>
    rw [rowsBelow, List.map_append, labels_rowsFrom _ _ _ entry, labels_rowsBelow _ _ _ rest,
      labelsOf]

end

mutual

/-- Every row but the first stands below another one. -/
theorem above_rowsFrom (parent : Option NodeId) (depth next : Nat) (entry : Outline) :
    ∀ row ∈ entry.rowsFrom parent depth next, row = ⟨⟨next⟩, parent, depth, entry⟩ ∨
      ∃ above ∈ entry.rowsFrom parent depth next, above.Above row := by
  obtain ⟨label, children⟩ := entry
  intro row hrow
  rw [rowsFrom] at hrow ⊢
  rcases List.mem_cons.mp hrow with rfl | hrow
  · exact .inl rfl
  · rcases above_rowsBelow _ _ _ children row hrow with ⟨hp, hd, he⟩ | ⟨above, ha, hab⟩
    · exact .inr ⟨_, .head _, hp, hd, he⟩
    · exact .inr ⟨above, .tail _ ha, hab⟩

theorem above_rowsBelow (parent : NodeId) (depth next : Nat) (entries : List Outline) :
    ∀ row ∈ rowsBelow parent depth next entries,
      (row.parent = some parent ∧ row.depth = depth ∧ row.entry ∈ entries) ∨
        ∃ above ∈ rowsBelow parent depth next entries, above.Above row := by
  cases entries with
  | nil => exact nofun
  | cons entry rest =>
    intro row hrow
    rw [rowsBelow] at hrow ⊢
    rcases List.mem_append.mp hrow with hrow | hrow
    · rcases above_rowsFrom _ _ _ entry row hrow with rfl | ⟨above, ha, hab⟩
      · exact .inl ⟨rfl, rfl, .head _⟩
      · exact .inr ⟨above, List.mem_append_left _ ha, hab⟩
    · rcases above_rowsBelow _ _ _ rest row hrow with ⟨hp, hd, he⟩ | ⟨above, ha, hab⟩
      · exact .inl ⟨hp, hd, .tail _ he⟩
      · exact .inr ⟨above, List.mem_append_right _ ha, hab⟩

end

/-- The nodes of the rows are numbered one after another. -/
def Numbered (next : Nat) (rows : List Row) : Prop :=
  rows.map Row.node = (List.range' next rows.length).map NodeId.mk

theorem Numbered.append {next : Nat} {rows more : List Row} (h : Numbered next rows)
    (h' : Numbered (next + rows.length) more) : Numbered next (rows ++ more) := by
  unfold Numbered at *
  rw [List.map_append, h, h', List.length_append, ← List.range'_append_1, List.map_append]

mutual

theorem numbered_rowsFrom (parent : Option NodeId) (depth next : Nat) (entry : Outline) :
    Numbered next (entry.rowsFrom parent depth next) := by
  obtain ⟨label, children⟩ := entry
  have hbelow := numbered_rowsBelow ⟨next⟩ (depth + 1) (next + 1) children
  have hfirst : Numbered next [⟨⟨next⟩, parent, depth, .mk label children⟩] := rfl
  exact hfirst.append hbelow

theorem numbered_rowsBelow (parent : NodeId) (depth next : Nat) (entries : List Outline) :
    Numbered next (rowsBelow parent depth next entries) := by
  cases entries with
  | nil => rfl
  | cons entry rest =>
    rw [rowsBelow]
    exact (numbered_rowsFrom _ _ _ entry).append (numbered_rowsBelow _ _ _ rest)

end

end Outline

namespace Workspace

/-- A row is planted: its node is made, and an edge to it unless it is the topmost. -/
def plantRow (row : Row) (w : Workspace) : Except Error Unit × Workspace :=
  match w.buildNode ((row.entry.level row.depth).spec row.label) with
  | (.error e, w) => (.error e, w)
  | (.ok node, w) =>
    match row.parent with
    | none => (.ok (), w)
    | some parent => (.ok (), (w.buildEdge ⟨parent, node, [branchEdge], .empty⟩).2)

def plantRows : List Row → Workspace → Except Error Unit × Workspace
  | [], w => (.ok (), w)
  | row :: rest, w =>
    match w.plantRow row with
    | (.error e, w) => (.error e, w)
    | (.ok (), w) => plantRows rest w

variable {w w' : Workspace}

theorem plantRows_append (rows more : List Row) (w : Workspace) :
    plantRows (rows ++ more) w =
      match plantRows rows w with
      | (.error e, w) => (.error e, w)
      | (.ok (), w) => plantRows more w := by
  induction rows generalizing w with
  | nil => rfl
  | cons row rest ih =>
    rw [List.cons_append, plantRows, plantRows]
    cases w.plantRow row with
    | mk result w' =>
      cases result with
      | error e => rfl
      | ok => exact ih w'

theorem number_buildNode {spec : NodeSpec} {node : NodeId}
    (h : w.buildNode spec = (.ok node, w')) :
    node = ⟨w.nodes.size⟩ ∧ w'.nodes.size = w.nodes.size + 1 := by
  have hok : (w.buildNode spec).1 = .ok node := by rw [h]
  obtain ⟨hnode, direct, -, hnodes⟩ := nodes_buildNode hok
  rw [h] at hnodes
  exact ⟨hnode, by rw [hnodes, Array.size_push]⟩

theorem size_plantRow {row : Row} (h : w.plantRow row = (.ok (), w')) :
    w'.nodes.size = w.nodes.size + 1 := by
  unfold plantRow at h
  split at h
  · cases h
  · next node v hbuilt =>
    have hsize := (number_buildNode hbuilt).2
    split at h
    · cases h
      exact hsize
    · cases h
      rw [nodes_buildEdge, hsize]

theorem size_plantRows {rows : List Row} (h : plantRows rows w = (.ok (), w')) :
    w'.nodes.size = w.nodes.size + rows.length := by
  induction rows generalizing w with
  | nil =>
    cases h
    rfl
  | cons row rest ih =>
    unfold plantRows at h
    split at h
    · cases h
    · next v heq =>
      rw [ih h, size_plantRow heq, List.length_cons]
      omega

mutual

/-- An entry is planted with all that is below it. -/
theorem growEntry_eq (parent : NodeId) (depth : Nat) (entry : Outline) (w : Workspace) :
    growEntry parent depth entry w =
      plantRows (entry.rowsFrom (some parent) depth w.nodes.size) w := by
  obtain ⟨label, children⟩ := entry
  simp only [growEntry, Outline.rowsFrom, plantRows, plantRow, Row.label, Outline.label]
  cases hbuilt : w.buildNode (((Outline.mk label children).level depth).spec label) with
  | mk result v =>
    cases result with
    | error e => rfl
    | ok node =>
      obtain ⟨rfl, hsize⟩ := number_buildNode hbuilt
      let joined := (v.buildEdge ⟨parent, ⟨w.nodes.size⟩, [branchEdge], .empty⟩).2
      have hjoined : joined.nodes.size = w.nodes.size + 1 := by rw [nodes_buildEdge, hsize]
      have hbelow := growEntries_eq ⟨w.nodes.size⟩ (depth + 1) children joined
      rw [hjoined] at hbelow
      exact hbelow

theorem growEntries_eq (parent : NodeId) (depth : Nat) (entries : List Outline) (w : Workspace) :
    growEntries parent depth entries w =
      plantRows (Outline.rowsBelow parent depth w.nodes.size entries) w := by
  cases entries with
  | nil => rfl
  | cons entry rest =>
    rw [growEntries, Outline.rowsBelow, plantRows_append, growEntry_eq _ _ entry w]
    cases hplanted : plantRows (entry.rowsFrom (some parent) depth w.nodes.size) w with
    | mk result w' =>
      cases result with
      | error e => rfl
      | ok =>
        rw [← size_plantRows hplanted]
        exact growEntries_eq _ _ rest w'

end

end Workspace

end DotDiagram
