import DotDiagram.Presets
import DotDiagram.Proofs.Workspace.Resolution
import DotDiagram.Proofs.Workspace.FirstWins
import Mathlib.Data.List.Induction
import Mathlib.Data.List.Nodup

/-! Chains, call by call. A call makes one edge to each of its targets, all from where the chain
has come to, or it restyles the edges made so far. So each edge ends with what it was made with
and all that was said to the chain since, whatever else goes on between the calls. -/

namespace DotDiagram

/-- One call on a chain. A style is applied by its attributes. -/
inductive ChainCall where
  | connect (target : NodeId)
  | connectAll (targets : List NodeId)
  | set (key : String) (value : AttrValue)
  | apply (style : EdgeStyle)
  | update (attrs : AttrSet)

namespace ChainCall

def perform (chain : Chain) (w : Workspace) : ChainCall → Chain × Workspace
  | .connect target => chain.connect target w
  | .connectAll targets => chain.connectAll targets w
  | .set key value => (chain, chain.set key value w)
  | .apply style => (chain, chain.update style.attrs w)
  | .update attrs => (chain, chain.update attrs w)

def targets : ChainCall → List NodeId
  | .connect target => [target]
  | .connectAll list => list
  | .set _ _ | .apply _ | .update _ => []

/-- What becomes of the attributes of the edges made so far. -/
def restyle (attrs : AttrSet) : ChainCall → AttrSet
  | .set key value => attrs.insert key value
  | .apply style => attrs.merge style.attrs
  | .update more => attrs.merge more
  | .connect _ | .connectAll _ => attrs

end ChainCall

/-- An edge as a chain sees it. -/
structure Link where
  source : NodeId
  target : NodeId
  attrs : AttrSet
  deriving DecidableEq

def Workspace.link? (w : Workspace) (e : EdgeId) : Option Link :=
  (w.edge? e).map fun edge => ⟨edge.source, edge.target, edge.attrs⟩

/-- A call, and what is in force when it is made. -/
structure Turn where
  ambient : Ambient
  call : ChainCall

namespace Turn

def links (turn : Turn) (tail : NodeId) : List Link :=
  turn.call.targets.map fun target => ⟨tail, target, (turn.ambient.edgeLayers [] .empty).resolve⟩

def restyle (turn : Turn) (link : Link) : Link :=
  { link with attrs := turn.call.restyle link.attrs }

/-- Where a chain has come to. -/
def tail (start : NodeId) (turns : List Turn) : NodeId :=
  (turns.flatMap fun turn => turn.call.targets).getLast?.getD start

/-- The edges that the turns make, as they are in the end. -/
def allLinks (start : NodeId) : List Turn → List Link
  | [] => []
  | turn :: later =>
    ((turn.links start).map fun link => later.foldl (fun link turn => turn.restyle link) link) ++
      allLinks (turn.call.targets.getLast?.getD start) later

theorem tail_concat (start : NodeId) (turns : List Turn) (turn : Turn) :
    tail start (turns ++ [turn]) = turn.call.targets.getLast?.getD (tail start turns) := by
  rw [tail, tail, List.flatMap_append, List.flatMap_singleton, List.getLast?_append]
  cases turn.call.targets.getLast? <;> rfl

theorem tail_cons (start : NodeId) (turn : Turn) (turns : List Turn) :
    tail start (turn :: turns) = tail (turn.call.targets.getLast?.getD start) turns := by
  rw [tail, tail, List.flatMap_cons, List.getLast?_append]
  cases (turns.flatMap fun turn => turn.call.targets).getLast? <;> rfl

/-- A further turn restyles all edges there are, and then makes its own. -/
theorem allLinks_concat (start : NodeId) (turns : List Turn) (turn : Turn) :
    allLinks start (turns ++ [turn]) =
      (allLinks start turns).map turn.restyle ++ turn.links (tail start turns) := by
  induction turns generalizing start with
  | nil => simp [allLinks, tail]
  | cons first later ih =>
    rw [List.cons_append, allLinks, allLinks, ih, tail_cons, List.map_append, List.map_map,
      List.append_assoc]
    simp only [List.foldl_append, List.foldl_cons, List.foldl_nil]
    rfl

end Turn

namespace Workspace

variable {w : Workspace} {e id : EdgeId}

theorem edge?_modifyEdge (w : Workspace) (id : EdgeId) (f : Edge → Edge) :
    (w.modifyEdge id f).edge? id = (w.edge? id).map f := by
  simp [edge?, modifyEdge, Array.getElem?_modify]

theorem edge?_buildEdge_of_lt (spec : EdgeSpec) (h : e.index < w.edges.size) :
    (w.buildEdge spec).2.edge? e = w.edge? e := by
  rw [edge?, edges_buildEdge, edge?, Array.getElem?_push, if_neg (Nat.ne_of_lt h)]

theorem size_edges_buildEdge (w : Workspace) (spec : EdgeSpec) :
    (w.buildEdge spec).2.edges.size = w.edges.size + 1 := by
  rw [edges_buildEdge, Array.size_push]

/-- Each of the edges is changed once, and no other. -/
theorem edge?_foldl {f : Edge → Edge} {edges : List EdgeId} (hn : edges.Nodup) (e : EdgeId) :
    (edges.foldl (fun w e => w.modifyEdge e f) w).edge? e =
      if e ∈ edges then (w.edge? e).map f else w.edge? e := by
  induction edges generalizing w with
  | nil => rfl
  | cons id edges ih =>
    obtain ⟨hid, hn⟩ := List.nodup_cons.mp hn
    rw [List.foldl_cons, ih hn]
    by_cases he : e = id
    · subst he
      rw [if_neg hid, if_pos List.mem_cons_self, edge?_modifyEdge]
    · simp only [edge?_modifyEdge_of_ne f he, List.mem_cons, he, false_or]

theorem edges_foldl_size (f : Edge → Edge) (w : Workspace) (edges : List EdgeId) :
    (edges.foldl (fun w e => w.modifyEdge e f) w).edges.size = w.edges.size := by
  induction edges generalizing w with
  | nil => rfl
  | cons id edges ih =>
    rw [List.foldl_cons, ih]
    simp [modifyEdge]

theorem foldl_eq_of_edges (f : Edge → Edge) (w : Workspace) (edges : List EdgeId) :
    edges.foldl (fun w e => w.modifyEdge e f) w =
      { w with edges := (edges.foldl (fun w e => w.modifyEdge e f) w).edges } := by
  induction edges generalizing w with
  | nil => rfl
  | cons id edges ih => exact ih (w.modifyEdge id f)

end Workspace

namespace Chain

variable {chain : Chain} {w v : Workspace}

/-- The handles of the next edges that will be made. -/
def nextEdges (w : Workspace) (n : Nat) : List EdgeId :=
  (List.range' w.edges.size n).map EdgeId.mk

theorem fanEdges_cons (source target : NodeId) (rest : List NodeId) (w : Workspace) :
    fanEdges source (target :: rest) w =
      let u := (w.buildEdge (.plain source target)).2
      (⟨w.edges.size⟩ :: (fanEdges source rest u).1, (fanEdges source rest u).2) := rfl

theorem fanEdges_made (source : NodeId) (targets : List NodeId) (w : Workspace) :
    (fanEdges source targets w).1 = nextEdges w targets.length ∧
      (fanEdges source targets w).2.edges.size = w.edges.size + targets.length := by
  induction targets generalizing w with
  | nil => exact ⟨rfl, rfl⟩
  | cons target rest ih =>
    obtain ⟨hedges, hsize⟩ := ih (w.buildEdge (.plain source target)).2
    rw [w.size_edges_buildEdge] at hsize
    rw [fanEdges_cons]
    refine ⟨?_, ?_⟩
    · simp only [hedges, nextEdges, w.size_edges_buildEdge, List.length_cons, List.range'_succ,
        List.map_cons]
    · simp only [hsize, List.length_cons]
      omega

theorem edge?_fanEdges (source : NodeId) (targets : List NodeId) {w : Workspace} {e : EdgeId}
    (h : e.index < w.edges.size) : (fanEdges source targets w).2.edge? e = w.edge? e := by
  induction targets generalizing w with
  | nil => rfl
  | cons target rest ih =>
    have hlt : e.index < (w.buildEdge (.plain source target)).2.edges.size := by
      rw [w.size_edges_buildEdge]
      omega
    exact (ih hlt).trans (w.edge?_buildEdge_of_lt _ h)

theorem links_fanEdges (source : NodeId) (targets : List NodeId) (w : Workspace) :
    (fanEdges source targets w).1.map (fanEdges source targets w).2.link? =
      targets.map fun target =>
        some ⟨source, target, (w.ambient.edgeLayers [] .empty).resolve⟩ := by
  induction targets generalizing w with
  | nil => rfl
  | cons target rest ih =>
    let u := (w.buildEdge (.plain source target)).2
    have hrest := ih u
    rw [w.ambient_buildEdge] at hrest
    have hfirst : (fanEdges source rest u).2.link? (w.buildEdge (.plain source target)).1 =
        some ⟨source, target, (w.ambient.edgeLayers [] .empty).resolve⟩ := by
      have hlt : (w.buildEdge (.plain source target)).1.index < u.edges.size := by
        rw [w.size_edges_buildEdge]
        exact Nat.lt_succ_self _
      rw [Workspace.link?, edge?_fanEdges source rest hlt, w.edge?_buildEdge]
      rfl
    rw [fanEdges_cons, List.map_cons, List.map_cons, ← hrest]
    exact congrArg (· :: _) hfirst

end Chain

/-- What a call does to a chain and its workspace. All edges that it makes go to the end of the
chain, whether or not a container lists them. -/
structure ChainCall.Carries (call : ChainCall) (chain : Chain) (w : Workspace) : Prop where
  tail : (call.perform chain w).1.tail = call.targets.getLast?.getD chain.tail
  edges : (call.perform chain w).1.edges = chain.edges ++ Chain.nextEdges w call.targets.length
  made : (call.perform chain w).2.edges.size = w.edges.size + call.targets.length
  links : (Chain.nextEdges w call.targets.length).map (call.perform chain w).2.link? =
    call.targets.map fun target =>
      some ⟨chain.tail, target, (w.ambient.edgeLayers [] .empty).resolve⟩
  within : ∀ e ∈ chain.edges, (call.perform chain w).2.edge? e =
    (w.edge? e).map fun edge => { edge with attrs := call.restyle edge.attrs }
  outside : ∀ e, e ∉ (call.perform chain w).1.edges →
    (call.perform chain w).2.edge? e = w.edge? e
  still : call.targets = [] →
    (call.perform chain w).2 = { w with edges := (call.perform chain w).2.edges }

namespace Chain

variable {chain : Chain} {w v : Workspace}

theorem mem_nextEdges {e : EdgeId} {n : Nat} :
    e ∈ nextEdges w n ↔ w.edges.size ≤ e.index ∧ e.index < w.edges.size + n := by
  constructor
  · intro h
    obtain ⟨i, hi, rfl⟩ := List.mem_map.mp h
    simpa using List.mem_range'_1.mp hi
  · intro h
    exact List.mem_map.mpr ⟨e.index, List.mem_range'_1.mpr h, rfl⟩

/-- The edges of the chain are different ones, and all of them have been made. -/
structure Known (chain : Chain) (w : Workspace) : Prop where
  once : chain.edges.Nodup
  made : ∀ e ∈ chain.edges, w.HasEdge e

theorem carries_connectAll (h : chain.Known w) (targets : List NodeId) :
    (ChainCall.connectAll targets).Carries chain w := by
  obtain ⟨hedges, hsize⟩ := fanEdges_made chain.tail targets w
  refine ⟨rfl, ?_, hsize, ?_, ?_, ?_, ?_⟩
  · exact congrArg (chain.edges ++ ·) hedges
  · exact hedges ▸ links_fanEdges chain.tail targets w
  · intro e he
    exact (edge?_fanEdges chain.tail targets (h.made e he)).trans Option.map_id'.symm
  · intro e he
    have hnew : e ∉ nextEdges w targets.length := by
      rw [← hedges]
      exact fun hm => he (List.mem_append_right _ hm)
    by_cases hlt : e.index < w.edges.size
    · exact edge?_fanEdges chain.tail targets hlt
    · have hge : w.edges.size + targets.length ≤ e.index := by
        rw [mem_nextEdges] at hnew
        omega
      have hbefore : w.edge? e = none := Array.getElem?_eq_none (Nat.not_lt.mp hlt)
      have hafter : (fanEdges chain.tail targets w).2.edge? e = none :=
        Array.getElem?_eq_none (hsize ▸ hge)
      exact hafter.trans hbefore.symm
  · intro htargets
    obtain rfl : targets = [] := htargets
    rfl

/-- The calls that make no edges. -/
theorem carries_restyle (h : chain.Known w) {call : ChainCall} (ht : call.targets = [])
    (hc : call.perform chain w = (chain, chain.edges.foldl
      (fun w e => w.modifyEdge e fun edge => { edge with attrs := call.restyle edge.attrs }) w)) :
    call.Carries chain w := by
  have hedge := Workspace.edge?_foldl (w := w)
    (f := fun edge => { edge with attrs := call.restyle edge.attrs }) h.once
  refine ⟨?_, ?_, ?_, ?_, ?_, ?_, ?_⟩
  · rw [hc, ht]
    rfl
  · rw [hc, ht]
    exact (List.append_nil _).symm
  · rw [hc, ht]
    exact Workspace.edges_foldl_size _ w chain.edges
  · rw [ht]
    rfl
  · intro e he
    rw [hc]
    exact (hedge e).trans (if_pos he)
  · intro e he
    rw [hc] at he ⊢
    exact (hedge e).trans (if_neg he)
  · intro
    rw [hc]
    exact Workspace.foldl_eq_of_edges _ w chain.edges

theorem carries (h : chain.Known w) (call : ChainCall) : call.Carries chain w := by
  cases call with
  | connect target =>
    have hall := carries_connectAll h [target]
    exact ⟨hall.tail, hall.edges, hall.made, hall.links, hall.within, hall.outside, hall.still⟩
  | connectAll targets => exact carries_connectAll h targets
  | set key value => exact carries_restyle h rfl rfl
  | apply style => exact carries_restyle h rfl rfl
  | update attrs => exact carries_restyle h rfl rfl

theorem Known.perform (h : chain.Known w) (call : ChainCall) :
    (call.perform chain w).1.Known (call.perform chain w).2 := by
  have hc := carries h call
  constructor
  · rw [hc.edges]
    refine h.once.append ?_ ?_
    · exact (List.nodup_range' 1).map fun i j hij => congrArg EdgeId.index hij
    · intro e he hnew
      exact absurd (h.made e he) (Nat.not_lt.mpr (mem_nextEdges.mp hnew).1)
  · intro e he
    rw [Workspace.HasEdge, hc.made]
    rw [hc.edges] at he
    rcases List.mem_append.mp he with he | he
    · exact Nat.lt_add_right _ (h.made e he)
    · exact (mem_nextEdges.mp he).2

/-- A chain under way from a node. Between its calls anything may be done that does not touch its
edges. -/
inductive Progress (start : NodeId) (w : Workspace) : List Turn → Chain → Workspace → Prop
  | begin : Progress start w [] (.startAt start) w
  | call {turns : List Turn} {chain : Chain} {u : Workspace} (call : ChainCall)
      (before : Progress start w turns chain u) :
      Progress start w (turns ++ [⟨u.ambient, call⟩]) (call.perform chain u).1
        (call.perform chain u).2
  | elsewhere {turns : List Turn} {chain : Chain} {u v : Workspace}
      (before : Progress start w turns chain u) (kept : ∀ e ∈ chain.edges, v.edge? e = u.edge? e)
      (grown : u.edges.size ≤ v.edges.size) : Progress start w turns chain v

/-- Where a chain stands after its turns, and what becomes of it at the next call. -/
structure Linked (start : NodeId) (w : Workspace) (turns : List Turn) (chain : Chain)
    (v : Workspace) : Prop where
  tail : chain.tail = Turn.tail start turns
  links : chain.edges.map v.link? = (Turn.allLinks start turns).map some
  known : chain.Known v
  fresh : ∀ e ∈ chain.edges, ¬ w.HasEdge e
  grown : w.edges.size ≤ v.edges.size
  next : ∀ call : ChainCall, call.Carries chain v

theorem linked_begin (start : NodeId) (w : Workspace) : Linked start w [] (.startAt start) w := by
  have hknown : (Chain.startAt start).Known w := ⟨List.nodup_nil, nofun⟩
  exact ⟨rfl, rfl, hknown, nofun, Nat.le_refl _, carries hknown⟩

variable {start : NodeId} {turns : List Turn} {u : Workspace} {m : Nat}

theorem Linked.call (h : Linked start w turns chain u) (call : ChainCall) :
    Linked start w (turns ++ [⟨u.ambient, call⟩]) (call.perform chain u).1
      (call.perform chain u).2 := by
  have hc := h.next call
  have hknown := h.known.perform call
  refine ⟨?_, ?_, hknown, ?_, ?_, carries hknown⟩
  · rw [hc.tail, Turn.tail_concat, h.tail]
  · have hold : chain.edges.map (call.perform chain u).2.link? =
        (chain.edges.map u.link?).map (Option.map (Turn.restyle ⟨u.ambient, call⟩)) := by
      rw [List.map_map]
      refine List.map_congr_left fun e he => ?_
      rw [Workspace.link?, hc.within e he, Function.comp_apply, Workspace.link?, Option.map_map,
        Option.map_map]
      rfl
    rw [hc.edges, List.map_append, hold, h.links, hc.links, Turn.allLinks_concat, List.map_append,
      List.map_map, List.map_map, Turn.links, List.map_map, h.tail]
    rfl
  · intro e he
    rw [hc.edges] at he
    rcases List.mem_append.mp he with he | he
    · exact h.fresh e he
    · exact Nat.not_lt.mpr (Nat.le_trans h.grown (mem_nextEdges.mp he).1)
  · rw [hc.made]
    exact Nat.le_trans h.grown (Nat.le_add_right _ _)

theorem Linked.elsewhere (h : Linked start w turns chain u)
    (kept : ∀ e ∈ chain.edges, v.edge? e = u.edge? e) (grown : u.edges.size ≤ v.edges.size) :
    Linked start w turns chain v := by
  have hknown : chain.Known v :=
    ⟨h.known.once, fun e he => Nat.lt_of_lt_of_le (h.known.made e he) grown⟩
  refine ⟨h.tail, ?_, hknown, h.fresh, Nat.le_trans h.grown grown, carries hknown⟩
  rw [← h.links]
  exact List.map_congr_left fun e he => congrArg (Option.map _) (kept e he)

theorem linked_of_progress (h : Progress start w turns chain v) : Linked start w turns chain v := by
  induction h with
  | begin => exact linked_begin start w
  | call call _ ih => exact ih.call call
  | elsewhere _ kept grown ih => exact ih.elsewhere kept grown

/-- One call after the other, with nothing in between. -/
def run (start : NodeId) (calls : List ChainCall) (w : Workspace) : Chain × Workspace :=
  calls.foldl (fun s call => call.perform s.1 s.2) (.startAt start, w)

theorem run_concat (start : NodeId) (calls : List ChainCall) (call : ChainCall) (w : Workspace) :
    run start (calls ++ [call]) w =
      call.perform (run start calls w).1 (run start calls w).2 := by
  rw [run, List.foldl_append]
  rfl

theorem ambient_perform (chain : Chain) (w : Workspace) (call : ChainCall) :
    (call.perform chain w).2.ambient = w.ambient := by
  have hlasting : Workspace.Lasting fun u => u.ambient = w.ambient :=
    ⟨fun {u} spec h => (u.ambient_buildNode spec).trans h,
      fun {u} spec h => (u.ambient_buildEdge spec).trans h⟩
  cases call with
  | connect target => exact w.ambient_buildEdge _
  | connectAll targets => exact hlasting.fanEdges rfl chain.tail targets
  | set key value => exact ambient_set key value chain w
  | apply style => exact ambient_update style.attrs chain w
  | update attrs => exact ambient_update attrs chain w

theorem progress_run (start : NodeId) (calls : List ChainCall) (w : Workspace) :
    Progress start w (calls.map fun call => ⟨w.ambient, call⟩) (run start calls w).1
      (run start calls w).2 ∧ (run start calls w).2.ambient = w.ambient := by
  induction calls using List.reverseRecOn with
  | nil => exact ⟨.begin, rfl⟩
  | append_singleton calls call ih =>
    obtain ⟨hprogress, hambient⟩ := ih
    rw [run_concat, List.map_append, ambient_perform]
    refine ⟨?_, hambient⟩
    have hcall := hprogress.call call
    rwa [hambient] at hcall

/-- The edges of a chain are just the ones made, and the others are as they were. -/
structure Apart (w : Workspace) (n : Nat) (chain : Chain) (v : Workspace) : Prop where
  edges : chain.edges = nextEdges w n
  made : v.edges.size = w.edges.size + n
  others : ∀ e, w.HasEdge e → v.edge? e = w.edge? e

theorem nextEdges_add (h : u.edges.size = w.edges.size + m) (n : Nat) :
    nextEdges w (m + n) = nextEdges w m ++ nextEdges u n := by
  rw [nextEdges, nextEdges, nextEdges, h, ← List.map_append, List.range'_append_1]

theorem Apart.perform (h : Apart w m chain u) {call : ChainCall} (hc : call.Carries chain u) :
    Apart w (m + call.targets.length) (call.perform chain u).1 (call.perform chain u).2 := by
  have hedges : (call.perform chain u).1.edges = nextEdges w (m + call.targets.length) := by
    rw [hc.edges, h.edges, nextEdges_add h.made]
  refine ⟨hedges, ?_, ?_⟩
  · rw [hc.made, h.made, Nat.add_assoc]
  · intro e he
    have hnew : e ∉ (call.perform chain u).1.edges := by
      rw [hedges, mem_nextEdges]
      exact fun hm => Nat.not_lt.mpr hm.1 he
    exact (hc.outside e hnew).trans (h.others e he)

theorem apart_run (start : NodeId) (calls : List ChainCall) (w : Workspace) :
    Apart w (calls.flatMap ChainCall.targets).length (run start calls w).1
      (run start calls w).2 := by
  induction calls using List.reverseRecOn with
  | nil => exact ⟨rfl, rfl, fun _ _ => rfl⟩
  | append_singleton calls call ih =>
    rw [run_concat, List.flatMap_append, List.length_append, List.flatMap_singleton]
    exact ih.perform ((linked_of_progress (progress_run start calls w).1).next call)

/-- Calls on a chain, with or without other things done between them. -/
theorem chain_linked (start : NodeId) (w : Workspace) :
    (∀ calls : List ChainCall,
      Linked start w (calls.map fun call => ⟨w.ambient, call⟩) (run start calls w).1
        (run start calls w).2 ∧
      Apart w (calls.flatMap ChainCall.targets).length (run start calls w).1
        (run start calls w).2) ∧
    ∀ turns chain v, Progress start w turns chain v → Linked start w turns chain v := by
  constructor
  · intro calls
    exact ⟨linked_of_progress (progress_run start calls w).1, apart_run start calls w⟩
  · intro turns chain v h
    exact linked_of_progress h

def pathCalls : List ChainCall := [.connectAll [], .connect ⟨1⟩, .set "color" "red"]

/-- The names are connected already. -/
def path : Chain × Workspace := run ⟨0⟩ pathCalls Session.furnished.workspace

/-- A style is entered, and the chain goes on. -/
def fork : Chain × Workspace :=
  let (chain, w) := (ChainCall.connectAll [⟨0⟩, ⟨1⟩]).perform path.1
    (path.2.enterEdgeStyle Presets.dashedEdge).2
  (ChainCall.apply Presets.blueEdge).perform chain w

def forkTurns : List Turn :=
  let before := Session.furnished.workspace.ambient
  let after := (before.enterEdgeStyle Presets.dashedEdge).2
  pathCalls.map (Turn.mk before) ++
    [⟨after, .connectAll [⟨0⟩, ⟨1⟩]⟩, ⟨after, .apply Presets.blueEdge⟩]

theorem fork_linked :
    Progress ⟨0⟩ Session.furnished.workspace forkTurns fork.1 fork.2 ∧ fork.1.tail = ⟨1⟩ ∧
      fork.1.edges.map fork.2.link? =
        [some ⟨⟨0⟩, ⟨1⟩, .ofList [("color", "blue")]⟩,
          some ⟨⟨1⟩, ⟨0⟩, .ofList [("style", "dashed"), ("color", "blue")]⟩,
          some ⟨⟨1⟩, ⟨1⟩, .ofList [("style", "dashed"), ("color", "blue")]⟩] ∧
      fork.1.edges.map (fun e => (fork.2.edge? e).map Edge.attached) =
        [some false, some true, some true] := by
  have hpath : Progress ⟨0⟩ Session.furnished.workspace (forkTurns.take 3) path.1 path.2 :=
    (progress_run ⟨0⟩ pathCalls Session.furnished.workspace).1
  have hstyled := hpath.elsewhere (v := (path.2.enterEdgeStyle Presets.dashedEdge).2)
    (fun _ _ => rfl) (Nat.le_refl _)
  have hfork : Progress ⟨0⟩ Session.furnished.workspace forkTurns fork.1 fork.2 :=
    (hstyled.call (.connectAll [⟨0⟩, ⟨1⟩])).call (.apply Presets.blueEdge)
  have hlinked := (chain_linked ⟨0⟩ Session.furnished.workspace).2 _ _ _ hfork
  refine ⟨hfork, hlinked.tail, ?_, by decide⟩
  rw [hlinked.links]
  decide

end Chain

end DotDiagram
