import Mathlib.Data.List.Basic
import Mathlib.Data.List.Nodup
import SuiteAtlas.Outline.Planting

namespace SuiteAtlas.Hierarchy

variable {h : Hierarchy} {key k : Key} {keys : List Key} {node : Node} {nodes : List Node}

theorem node?_lt (hk : h.node? k = some node) : k < h.nodes.size :=
  (Array.getElem?_eq_some_iff.1 hk).1

@[simp] theorem create_roots (h : Hierarchy) (node : Node) :
    (h.create node).2.roots = h.roots := rfl

@[simp] theorem create_size (h : Hierarchy) (node : Node) :
    (h.create node).2.nodes.size = h.nodes.size + 1 := by
  simp [create]

theorem node?_create_lt (hk : k < h.nodes.size) : (h.create node).2.node? k = h.node? k := by
  simp only [create, node?, Array.getElem?_push_lt hk, Array.getElem?_eq_getElem hk]

@[simp] theorem node?_create_self (h : Hierarchy) (node : Node) :
    (h.create node).2.node? h.nodes.size = some node := by
  simp [create, node?]

@[simp] theorem createAll_size (h : Hierarchy) (nodes : List Node) :
    (h.createAll nodes).2.nodes.size = h.nodes.size + nodes.length := by
  induction nodes generalizing h with
  | nil => rfl
  | cons node rest ih =>
    simp only [createAll, ih, create_size, List.length_cons]
    omega

theorem createAll_keys (h : Hierarchy) (nodes : List Node) :
    (h.createAll nodes).1 = List.range' h.nodes.size nodes.length := by
  induction nodes generalizing h with
  | nil => rfl
  | cons node rest ih =>
    simp only [createAll, ih, create_size, List.length_cons, List.range'_succ]
    rfl

@[simp] theorem modify_roots (h : Hierarchy) (key : Key) (change : Node → Node) :
    (h.modify key change).roots = h.roots := rfl

@[simp] theorem modify_size (h : Hierarchy) (key : Key) (change : Node → Node) :
    (h.modify key change).nodes.size = h.nodes.size := by
  simp [modify]

theorem node?_modify (h : Hierarchy) (key : Key) (change : Node → Node) (k : Key) :
    (h.modify key change).node? k =
      if k = key then (h.node? k).map change else h.node? k := by
  simp only [modify, node?, Array.getElem?_modify, eq_comm (a := key)]

@[simp] theorem setParent_roots (h : Hierarchy) (parent : Option Key) (keys : List Key) :
    (h.setParent parent keys).roots = h.roots := by
  induction keys generalizing h with
  | nil => rfl
  | cons key rest ih => exact ih _

@[simp] theorem setParent_size (h : Hierarchy) (parent : Option Key) (keys : List Key) :
    (h.setParent parent keys).nodes.size = h.nodes.size := by
  induction keys generalizing h with
  | nil => rfl
  | cons key rest ih => exact (ih _).trans (modify_size h key _)

theorem node?_setParent (h : Hierarchy) (parent : Option Key) (keys : List Key) (k : Key) :
    (h.setParent parent keys).node? k =
      if k ∈ keys then (h.node? k).map (Node.withParent parent) else h.node? k := by
  induction keys generalizing h with
  | nil => rfl
  | cons key rest ih =>
    have hs : h.setParent parent (key :: rest) =
        (h.modify key (Node.withParent parent)).setParent parent rest := rfl
    have hp : Node.withParent parent ∘ Node.withParent parent = Node.withParent parent := rfl
    rw [hs, ih, node?_modify]
    by_cases hk : k = key
    · subst hk
      simp [hp]
    · simp [hk]

theorem id?_setParent (h : Hierarchy) (parent : Option Key) (keys : List Key) (k : Key) :
    (h.setParent parent keys).id? k = h.id? k := by
  rw [id?, id?, node?_setParent]
  split
  · rw [Option.map_map]
    rfl
  · rfl

theorem node?_putRoot (h : Hierarchy) (key k : Key) :
    (h.putRoot key).node? k =
      if k = key then (h.node? k).map (Node.withParent none) else h.node? k := by
  have hp : (h.putRoot key).node? k = (h.setParent none [key]).node? k := by
    rw [putRoot]
    split <;> rfl
  rw [hp, node?_setParent]
  simp only [List.mem_singleton]

theorem roots_putRoot (hnew : ∀ k ∈ h.roots, h.id? k ≠ h.id? key) :
    (h.putRoot key).roots = h.roots ++ [key] := by
  have hnone : ((h.setParent none [key]).roots.any fun k =>
      (h.setParent none [key]).id? k == (h.setParent none [key]).id? key) = false := by
    rw [List.any_eq_false]
    intro k hk he
    rw [setParent_roots] at hk
    rw [id?_setParent, id?_setParent, beq_iff_eq] at he
    exact hnew k hk he
  rw [setParent_roots] at hnone
  simp only [putRoot, setParent_roots, hnone, Bool.false_eq_true, if_false]

theorem distinctIds_eq_self (hids : (keys.map h.id?).Nodup) : h.distinctIds keys = keys := by
  have go (kept rest : List Key) (hn : ((kept ++ rest).map h.id?).Nodup) :
      rest.foldl (fun kept key =>
        if kept.any fun k => h.id? k == h.id? key then kept else kept ++ [key]) kept =
        kept ++ rest := by
    induction rest generalizing kept with
    | nil => simp
    | cons key rest ih =>
      have hnew : (kept.any fun k => h.id? k == h.id? key) = false := by
        rw [List.any_eq_false]
        intro k hk he
        rw [List.map_append, List.nodup_append] at hn
        exact hn.2.2 (h.id? k) (List.mem_map_of_mem hk) (h.id? key) (by simp) (by simpa using he)
      simp only [List.foldl_cons, hnew, Bool.false_eq_true, if_false]
      rw [ih (kept ++ [key]) (by simpa using hn), List.append_assoc]
      rfl
  exact go [] keys hids

@[simp] theorem setChildren_roots (h : Hierarchy) (key : Key) (keys : List Key) :
    (h.setChildren key keys).roots = h.roots := by
  simp [setChildren]

@[simp] theorem setChildren_size (h : Hierarchy) (key : Key) (keys : List Key) :
    (h.setChildren key keys).nodes.size = h.nodes.size := by
  simp [setChildren]

theorem node?_setChildren (hids : (keys.map h.id?).Nodup) (hkey : key ∉ keys) (k : Key) :
    (h.setChildren key keys).node? k =
      if k = key then (h.node? k).map (Node.withChildren keys)
      else if k ∈ keys then (h.node? k).map (Node.withParent (some key))
      else h.node? k := by
  simp only [setChildren, distinctIds_eq_self hids, node?_modify, node?_setParent]
  by_cases hk : k = key
  · simp [hk, hkey]
  · simp [hk]

end SuiteAtlas.Hierarchy
