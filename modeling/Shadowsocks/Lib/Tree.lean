import Mathlib.Data.List.Nodup
import Mathlib.Data.List.Perm.Basic

/-!
# An ordered map whose nodes hold their keys

A node is found by the key it had when it was inserted: that key has put it where it
is. The keys are compared by a comparator, which is `Exact` where it takes no two
different keys for equal.
-/

namespace Shadowsocks.Lib
set_option autoImplicit false

/-- The nodes of a tree with their keys. The shape is not modelled: the operations find a node by
its key alone. -/
structure Tree (κ : Type) where
  nodes : List (κ × Nat) := []

namespace Tree
variable {κ : Type} (cmp : κ → κ → Int)

/-- The node whose key compares equal. -/
def lookupExact (t : Tree κ) (key : κ) : Option Nat :=
  (t.nodes.find? fun node => cmp key node.1 = 0).map Prod.snd

/-- Nothing is inserted where there is such a node already. -/
def insert (t : Tree κ) (key : κ) (id : Nat) : Tree κ :=
  if (t.lookupExact cmp key).isSome then t else { nodes := t.nodes ++ [(key, id)] }

/-- The node to be removed is known, so its key is not looked at. -/
def remove (t : Tree κ) (id : Nat) : Tree κ := { nodes := t.nodes.filter fun node => node.2 ≠ id }

/-- Keys compare as equal only if they are. -/
def Exact : Prop := ∀ a b, cmp a b = 0 ↔ a = b

variable {cmp} {t : Tree κ} {es : List (κ × Nat)} {key : κ} {id : Nat}

/-- A key that no node has is not found. -/
theorem lookupExact_none (exact_ : Exact cmp) (perm : t.nodes.Perm es) (absent : key ∉ es.map Prod.fst) :
    t.lookupExact cmp key = none := by
  rw [lookupExact, Option.map_eq_none_iff, List.find?_eq_none]
  intro node mem same
  have eq := (exact_ key node.1).mp (of_decide_eq_true same)
  exact absent (eq ▸ List.mem_map_of_mem (perm.mem_iff.mp mem))

/-- A key that one node has leads to it, in whatever order the nodes are compared. -/
theorem lookupExact_some (exact_ : Exact cmp) (perm : t.nodes.Perm es) (once : (es.map Prod.fst).Nodup)
    (here : (key, id) ∈ es) : t.lookupExact cmp key = some id := by
  have mem : (key, id) ∈ t.nodes := perm.mem_iff.mpr here
  obtain ⟨⟨k, i⟩, found⟩ : ∃ node, t.nodes.find? (fun node => cmp key node.1 = 0) = some node := by
    refine Option.isSome_iff_exists.mp (List.find?_isSome.mpr ⟨(key, id), mem, ?_⟩)
    exact decide_eq_true ((exact_ key key).mpr rfl)
  have same : key = k := (exact_ key k).mp (by simpa using List.find?_some found)
  subst same
  have other : (key, i) ∈ es := perm.mem_iff.mp (List.mem_of_find?_eq_some found)
  rw [lookupExact, found, Option.map_some, (Prod.mk.inj (List.inj_on_of_nodup_map once other here rfl)).2]

/-- A node with a new key is added. -/
theorem insert_nodes (exact_ : Exact cmp) (perm : t.nodes.Perm es) (absent : key ∉ es.map Prod.fst) :
    (t.insert cmp key id).nodes.Perm (es ++ [(key, id)]) := by
  rw [insert, lookupExact_none exact_ perm absent, if_neg (by simp)]
  exact perm.append_right _

/-- The node goes, and no other one, since nodes are told apart by their address. -/
theorem remove_nodes {as bs : List (κ × Nat)} (perm : t.nodes.Perm (as ++ (key, id) :: bs))
    (once : ((as ++ (key, id) :: bs).map Prod.snd).Nodup) : (t.remove id).nodes.Perm (as ++ bs) := by
  rw [List.map_append, List.map_cons, List.nodup_append, List.nodup_cons] at once
  obtain ⟨-, ⟨notBack, -⟩, apart⟩ := once
  refine (perm.filter _).trans ?_
  rw [List.filter_append, List.filter_cons_of_neg (by simp)]
  have front : as.filter (fun node => decide (node.2 ≠ id)) = as := by
    refine List.filter_eq_self.mpr fun node mem => decide_eq_true ?_
    exact apart _ (List.mem_map_of_mem mem) _ List.mem_cons_self
  have back : bs.filter (fun node => decide (node.2 ≠ id)) = bs := by
    refine List.filter_eq_self.mpr fun node mem => decide_eq_true fun same => ?_
    exact notBack (List.mem_map.mpr ⟨node, mem, same⟩)
  rw [front, back]

end Tree

end Shadowsocks.Lib
