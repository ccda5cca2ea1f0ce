import ShaderTypes.Proofs.Store.Extension

/-!
# Sizes that stay

The size of an array or a vector is computed from that of its element, down to a basic type or a
composite.  The element stands before, so a size is settled by the nodes up to the one it belongs
to, and a later store gives the same size to a node as long as these say what they said.

The exception is a composite that is being filled, which gets its size in the end.  Its members do
not matter, and nor does its size to the nodes that stand before it.
-/

namespace ShaderTypes

namespace Debug

/-- The node from which the size of an array or a vector is computed. -/
def Entry.element? : Entry → Option NodeId
  | .array e => some e.element
  | .vector e => some e.element
  | _ => none

namespace NodeTable

variable {t t' : NodeTable} {n : NodeId} {e : Entry}

/-- Two nodes that say the same are of one size if their elements are. -/
lemma sizeInBits_congr (he : t.entry? n = some e) (he' : t'.entry? n = some e)
    (element : ∀ m, e.element? = some m → m.index < n.index →
      t'.sizeInBits m = t.sizeInBits m) : t'.sizeInBits n = t.sizeInBits n := by
  rw [sizeInBits, sizeInBits, he, he']
  cases e with
  | array e =>
    by_cases h : e.element.index < n.index
    · simp only [dif_pos h, element _ rfl h]
    · simp only [dif_neg h]
  | vector e =>
    by_cases h : e.element.index < n.index
    · simp only [dif_pos h, element _ rfl h]
    · simp only [dif_neg h]
  | _ => rfl

lemma sizeInBits_of_entry?_eq_none (h : t.entry? n = none) : t.sizeInBits n = 0 := by
  rw [sizeInBits, h]

lemma sizeInBits_composite {c : Composite} (h : t.entry? n = some (.composite c)) :
    t.sizeInBits n = c.size := by
  rw [sizeInBits, h]

/-- A size is settled by the nodes up to the one it belongs to. -/
lemma sizeInBits_eq_of_le (h : ∀ m : NodeId, m.index ≤ n.index → t'.entry? m = t.entry? m) :
    t'.sizeInBits n = t.sizeInBits n := by
  induction hn : n.index using Nat.strongRecOn generalizing n with
  | _ i ih =>
  subst hn
  have hself := h n (Nat.le_refl _)
  cases he : t.entry? n with
  | none =>
    rw [he] at hself
    rw [sizeInBits_of_entry?_eq_none he, sizeInBits_of_entry?_eq_none hself]
  | some e =>
    refine sizeInBits_congr he (hself.trans he) fun m _ hm => ?_
    exact ih m.index hm (fun l hl => h l (Nat.le_trans hl (Nat.le_of_lt hm))) rfl

end NodeTable

end Debug

namespace Store

variable {s t : Store} {n m d : NodeId} {b : BuilderId} {size : UInt32}

/-- What was made before has the size it had. -/
lemma sizeInBits_eq_of_entries
    (h : ∀ {n : NodeId} {e : Debug.Entry}, s.nodes.entry? n = some e → t.nodes.entry? n = some e)
    (hd : d.index < s.nodes.size) : t.nodes.sizeInBits d = s.nodes.sizeInBits d := by
  refine Debug.NodeTable.sizeInBits_eq_of_le fun m hm => ?_
  have hlt : m.index < s.nodes.nodes.length := Nat.lt_of_le_of_lt hm hd
  have he : s.nodes.entry? m = some s.nodes.nodes[m.index].entry :=
    Debug.NodeTable.entry?_of_node? (List.getElem?_eq_getElem hlt)
  rw [he, h he]

lemma Extends.sizeInBits_eq (h : s.Extends t) (hd : d.index < s.nodes.size) :
    t.nodes.sizeInBits d = s.nodes.sizeInBits d :=
  sizeInBits_eq_of_entries h.entries hd

/-- A composite is of the same size with a member more. -/
lemma sizeInBits_pushMember : (s.pushMember n m).nodes.sizeInBits d = s.nodes.sizeInBits d := by
  induction hi : d.index using Nat.strongRecOn generalizing d with
  | _ i ih =>
  subst hi
  have hentry : (s.pushMember n m).nodes.entry? d = (s.nodes.entry? d).map fun e =>
      if d = n then e.mapComposite fun c => { c with members := c.members ++ [m] } else e := by
    rw [pushMember, modifyNode, Debug.NodeTable.entry?, Debug.NodeTable.node?_modify,
      Debug.NodeTable.entry?]
    split <;> cases s.nodes.node? d <;> rfl
  cases he : s.nodes.entry? d with
  | none =>
    rw [he] at hentry
    rw [Debug.NodeTable.sizeInBits_of_entry?_eq_none he,
      Debug.NodeTable.sizeInBits_of_entry?_eq_none hentry]
  | some e =>
    have same (h : (s.pushMember n m).nodes.entry? d = some e) :
        (s.pushMember n m).nodes.sizeInBits d = s.nodes.sizeInBits d :=
      Debug.NodeTable.sizeInBits_congr he h fun l _ hl => ih l.index hl rfl
    rw [he, Option.map_some] at hentry
    by_cases hdn : d = n
    · rw [if_pos hdn] at hentry
      cases e with
      | composite c =>
        rw [Debug.NodeTable.sizeInBits_composite he, Debug.NodeTable.sizeInBits_composite hentry]
      | _ => exact same hentry
    · rw [if_neg hdn] at hentry
      exact same hentry

/-- The size of a composite does not matter to the nodes that stand before it. -/
lemma sizeInBits_setSize_of_lt (hd : d.index < n.index) :
    (s.setSize n size).nodes.sizeInBits d = s.nodes.sizeInBits d := by
  refine Debug.NodeTable.sizeInBits_eq_of_le fun m hm => entry?_modifyNode_of_ne ?_
  rintro rfl
  exact Nat.lt_irrefl _ (Nat.lt_of_le_of_lt hm hd)

end Store

end ShaderTypes
