import ShaderTypes.Proofs.Lowering.Fallback

/-!
# Which instructions a pass leaves unstamped

The two halves about one lowering are carried along the walk over a module.  A node that was there
before the pass is stamped after it if and only if it was stamped already, or it is one of the
instructions of the module, or it is the placeholder and the type of one of the instructions falls
back on it.

The pass appends everything that is listed, so an instruction without a stamp comes from a node that
the caller listed (a template, a template parameter, a member, a debug type recorded for a type, or
the placeholder) and that none of the three covers.
-/

namespace ShaderTypes

namespace Store

variable {s r t : Store} {n p : NodeId} {a : TypeId} {b : BuilderId}

/-- A node that keeps its marks was stamped before, if its result type was known then. -/
lemma isStamped_of_marks?_eq (sound : s.Sound) (types : s.types.shapes <+: t.types.shapes)
    (marks : t.marks? n = s.marks? n) (h : t.isStamped b n = true) : s.isStamped b n = true := by
  obtain ⟨a, ha, hvoid⟩ := isStamped_iff.1 h
  rw [marks] at ha
  obtain ⟨node, hnode, heq⟩ := Option.map_eq_some_iff.1 ha
  have hresult : node.resultType = some a := congrArg Prod.fst heq
  rw [TypeTable.has_eq_of_lt types (sound.results hnode hresult)] at hvoid
  exact isStamped_iff.2 ⟨a, ha, hvoid⟩

/-- Of the nodes that were there, the placeholder is the one it was. -/
lemma Extends.get?_none_of_lt (h : s.Extends r) (hn : n.index < s.nodes.size)
    (hr : r.debugTypes.get? none = some n) : s.debugTypes.get? none = some n := by
  obtain ⟨more, hmore, hnew⟩ := h.keyed
  rcases OrderedMap.get?_append_cases hmore hr with hs | ⟨-, hmem⟩
  · exact hs
  · have hge := (hnew _ hmem).1
    simp only at hge
    omega

lemma Settled.withDebugType {bound : Nat} {d m : NodeId} (h : s.Settled b p bound r) :
    s.Settled b p bound (r.withDebugType m d) where
  sustains := h.sustains.trans extends_withDebugType.sustains
  made := Nat.lt_of_lt_of_le h.made extends_withDebugType.size_le
  spared := h.spared.imp_left isStamped_withDebugType

end Store

namespace Lowering

open Store

variable {s r t : Store} {n p i : NodeId} {a : TypeId} {b : BuilderId} {instructions : List NodeId}

/-- If the type of one of the instructions falls back, the walk stamps the placeholder. -/
lemma Walk.isStamped_of_fallsBack (h : Walk b instructions r t) (sound : s.Sound)
    (hp : s.debugTypes.get? none = some p)
    (known : ∀ n ∈ instructions, n.index < s.nodes.size) (ext : s.Extends r)
    (hr : s.Settled b p s.types.size r) (hi : i ∈ instructions) (ha : s.type? i = some a)
    (fallsBack : s.FallsBack a) : t.isStamped b p = true := by
  induction h with
  | nil => cases hi
  | @untyped m _ r _ htype _ ih =>
    have hext : s.Extends (r.stamp m b) := ext.trans extends_stamp
    have hstamp : Changes b (fun _ _ => True) 0 r (r.stamp m b) := changes_stamp
    refine ih (fun n hn => known n (List.mem_cons_of_mem _ hn)) hext
      (hr.changes hstamp fun _ _ => id) ?_
    rcases List.mem_cons.1 hi with rfl | hi
    · -- The instruction has a type, so it is not this one.
      rw [hext.type? (known _ List.mem_cons_self), ha] at htype
      cases htype
    · exact hi
  | @typed m d u _ r r' _ htype lowered tail ih =>
    have hext : s.Extends (r.stamp m b) := ext.trans extends_stamp
    have hstamp : Changes b (fun _ _ => True) 0 r (r.stamp m b) := changes_stamp
    have htype' : s.type? m = some u := (hext.type? (known _ List.mem_cons_self)).symm.trans htype
    have hu : u.index < s.types.size := sound.typed htype'
    have hsettled : s.Settled b p s.types.size (r.stamp m b) := hr.changes hstamp fun _ _ => id
    obtain ⟨hlow, hstamped⟩ :=
      settled_of_lower sound.types.wellFormed hp lowered hu (hsettled.mono hu)
    rcases List.mem_cons.1 hi with rfl | hi
    · obtain rfl : u = a := Option.some.inj (htype'.symm.trans ha)
      exact isStamped_of_walk tail
        (isStamped_withDebugType (hstamped fallsBack))
    · exact ih (fun n hn => known n (List.mem_cons_of_mem _ hn))
        (ext.trans (extends_of_typed lowered))
        (hsettled.raise (lower_changes lowered) hlow).withDebugType hi

/-- A node that is no instruction of the module keeps its marks, unless it is the placeholder and the
type of one of the instructions falls back. -/
lemma Walk.marks?_eq (h : Walk b instructions r t) (sound : s.Sound)
    (known : ∀ n ∈ instructions, n.index < s.nodes.size) (ext : s.Extends r)
    (hn : n.index < s.nodes.size) (hother : n ∉ instructions)
    (hnot : s.debugTypes.get? none = some n →
      ∀ i ∈ instructions, ∀ a, s.type? i = some a → ¬ s.FallsBack a) :
    t.marks? n = r.marks? n := by
  induction h with
  | nil => rfl
  | untyped _ _ ih =>
    rw [List.mem_cons, not_or] at hother
    obtain ⟨hne, hrest⟩ := hother
    rw [ih (fun n hn => known n (List.mem_cons_of_mem _ hn)) (ext.trans extends_stamp) hrest
      fun hplaceholder i hi => hnot hplaceholder i (List.mem_cons_of_mem _ hi)]
    exact marks?_stamp_of_ne hne
  | @typed m d u _ r r' _ htype lowered tail ih =>
    rw [List.mem_cons, not_or] at hother
    obtain ⟨hne, hrest⟩ := hother
    have hext : s.Extends (r.stamp m b) := ext.trans extends_stamp
    have htype' : s.type? m = some u := (hext.type? (known _ List.mem_cons_self)).symm.trans htype
    have hlower : r'.marks? n = (r.stamp m b).marks? n := by
      refine leavesMarks_lower sound.types.wellFormed lowered (sound.typed htype') hext.sustains n
        (Nat.lt_of_lt_of_le hn hext.size_le) fun hplaceholder v hv => ?_
      rw [List.mem_singleton.1 hv]
      exact hnot (hext.get?_none_of_lt hn hplaceholder) m List.mem_cons_self u htype'
    rw [ih (fun n hn => known n (List.mem_cons_of_mem _ hn))
      (ext.trans (extends_of_typed lowered)) hrest
      fun hplaceholder i hi => hnot hplaceholder i (List.mem_cons_of_mem _ hi)]
    rw [marks?_withDebugType, hlower, marks?_stamp_of_ne hne]

/-- What the walk stamps among the nodes that were there. -/
lemma Walk.isStamped_iff (h : Walk b instructions s t) (sound : s.Sound)
    (known : ∀ n ∈ instructions, n.index < s.nodes.size) (hn : n.index < s.nodes.size) :
    t.isStamped b n = true ↔ s.isStamped b n = true ∨ n ∈ instructions ∨
      s.debugTypes.get? none = some n ∧
        ∃ i ∈ instructions, ∃ a, s.type? i = some a ∧ s.FallsBack a := by
  constructor
  · intro hstamped
    by_cases hmem : n ∈ instructions
    · exact Or.inr (Or.inl hmem)
    by_cases hfalls : s.debugTypes.get? none = some n ∧
        ∃ i ∈ instructions, ∃ a, s.type? i = some a ∧ s.FallsBack a
    · exact Or.inr (Or.inr hfalls)
    have hmarks : t.marks? n = s.marks? n :=
      h.marks?_eq sound known (.refl s) hn hmem fun hget i hi a ha fallsBack =>
        hfalls ⟨hget, i, hi, a, ha, fallsBack⟩
    exact Or.inl
      (isStamped_of_marks?_eq sound (extends_of_walk h).types.shapes_le hmarks hstamped)
  · rintro (hstamped | hmem | ⟨hget, i, hi, a, ha, fallsBack⟩)
    · exact isStamped_of_walk h hstamped
    · exact h.isStamped known n hmem
    · -- No type that falls back is listed when the pass begins.
      have hstart : s.Settled b n s.types.size s :=
        ⟨.refl s, hn, Or.inr fun v _ hv => hv.debugType?_eq_none⟩
      exact h.isStamped_of_fallsBack sound hget known (.refl s) hstart hi ha fallsBack

end Lowering

namespace Store

variable {s t : Store} {n : NodeId} {b : BuilderId}

/-- After a pass every instruction of the module is stamped if and only if every node that was listed
before the pass was stamped already, or is itself an instruction of the module, or is the placeholder
and the type of one of the instructions falls back on it. -/
theorem Reachable.lowerModule_stamps_iff {m m' : Module} {completed : Bool} (hs : s.Reachable)
    (h : s.run (.lowerModule b m) = .ok (.module completed m', t)) :
    completed = true ∧
    ((∀ n ∈ m'.instructions, t.isStamped b n = true) ↔
      ∀ n ∈ s.emitted, s.isStamped b n = true ∨ n ∈ m.instructions ∨
        s.debugTypes.get? none = some n ∧
          ∃ i ∈ m.instructions, ∃ a, s.type? i = some a ∧ s.FallsBack a) := by
  obtain ⟨-, known, hperform⟩ := run_eq_ok h
  obtain ⟨⟨completed', m'', t'⟩, hpass, hreply⟩ := perform_bind_eq_ok hperform
  cases hreply
  obtain ⟨rfl, rfl, hwalk⟩ := lowerModule_eq_ok hpass
  have known : ∀ n ∈ m.instructions, n.index < s.nodes.size := fun n hn =>
    known n (List.mem_append_left _ hn)
  have stamped_iff (n : NodeId) (hn : n ∈ s.emitted) :=
    hwalk.isStamped_iff hs.sound known (hs.sound.listed n hn) (n := n)
  refine ⟨rfl, ?_⟩
  constructor
  · intro hall n hn
    have hlisted : n ∈ t.emitted := (extends_of_walk hwalk).emitted_subset hn
    exact (stamped_iff n hn).1 (hall n (List.mem_append_right _ hlisted))
  · intro hall n hn
    rcases List.mem_append.1 hn with hn | hn
    · exact hwalk.isStamped known n hn
    · rcases hwalk.listsStamped n hn with hn | hn
      · exact (stamped_iff n hn).2 (hall n hn)
      · exact hn

/-- A placeholder and a template parameter are made, and a variable that is a sampler. -/
def samplerSession : List Operation :=
  [.type .sampler, .openFile "a.hlsl",
    .basic none { name := "Unknown", size := none, encoding := .unspecified },
    .templateParameter { name := "T", actual := none, value := none, site := ⟨⟨0⟩, 1, 1⟩ },
    .globalVariable
      { name := "x", site := ⟨⟨0⟩, 1, 1⟩, parent := ⟨1⟩, linkageName := "x", flags := ⟨0⟩
        type := some ⟨0⟩ }]

/-- The template parameter is an instruction of the module, and the type of the variable falls back on
the placeholder, so that both are stamped. -/
theorem lowerModule_stamps_iff_of_sampler : ∃ (s t : Store) (m' : Module), s.Reachable ∧
    s.emitted = [⟨2⟩, ⟨3⟩] ∧ s.isStamped ⟨0⟩ ⟨2⟩ = false ∧ s.isStamped ⟨0⟩ ⟨3⟩ = false ∧
    s.run (.lowerModule ⟨0⟩ ⟨[⟨3⟩, ⟨4⟩]⟩) = .ok (.module true m', t) ∧
    ∀ n ∈ m'.instructions, t.isStamped ⟨0⟩ n = true := by
  obtain ⟨replies, s, hsession, listed, hplaceholder, hparameter, hget, type, unlisted, shape,
    hrun⟩ :=
    exists_of_runAll {} samplerSession (fun s => s.emitted = [⟨2⟩, ⟨3⟩] ∧
      s.isStamped ⟨0⟩ ⟨2⟩ = false ∧ s.isStamped ⟨0⟩ ⟨3⟩ = false ∧
      s.debugTypes.get? none = some ⟨2⟩ ∧ s.type? ⟨4⟩ = some ⟨0⟩ ∧ s.debugType? ⟨0⟩ = none ∧
      s.types.shape? ⟨0⟩ = some .sampler ∧
      (s.run (.lowerModule ⟨0⟩ ⟨[⟨3⟩, ⟨4⟩]⟩)).toOption.isSome = true) (by decide +kernel)
  have reachable : s.Reachable := ⟨{}, samplerSession, replies, hsession⟩
  obtain ⟨⟨reply, t⟩, hrun⟩ := Option.isSome_iff_exists.1 hrun
  have hrun := eq_ok_of_toOption hrun
  obtain ⟨-, -, hperform⟩ := run_eq_ok hrun
  obtain ⟨⟨completed, m', r⟩, -, hreply⟩ := perform_bind_eq_ok hperform
  cases hreply
  obtain ⟨rfl, hstamps⟩ := reachable.lowerModule_stamps_iff hrun
  refine ⟨s, t, m', reachable, listed, hplaceholder, hparameter, hrun, hstamps.2 ?_⟩
  intro n hn
  rw [listed] at hn
  rcases List.mem_cons.1 hn with rfl | hn
  · refine Or.inr (Or.inr ⟨hget, ⟨4⟩, by simp, ⟨0⟩, type, ?_⟩)
    exact .undescribed unlisted shape rfl rfl
  · exact Or.inr (Or.inl (by simp [List.mem_singleton.1 hn]))

/-- A template parameter is made that no module contains. -/
def parameterSession : List Operation :=
  [.type .void, .openFile "a.hlsl",
    .templateParameter { name := "T", actual := none, value := none, site := ⟨⟨0⟩, 1, 1⟩ }]

/-- The template parameter is appended to an empty module without a stamp. -/
theorem exists_unstamped_templateParameter : ∃ (s t : Store) (m' : Module), s.Reachable ∧
    s.run (.lowerModule ⟨0⟩ ⟨[]⟩) = .ok (.module true m', t) ∧
    ∃ n ∈ m'.instructions, t.isStamped ⟨0⟩ n = false := by
  obtain ⟨replies, s, hsession, hrun, unstamped⟩ := exists_of_runAll {} parameterSession
    (fun s => (s.run (.lowerModule ⟨0⟩ ⟨[]⟩)).toOption = some (.module true ⟨[⟨2⟩]⟩, s) ∧
      s.isStamped ⟨0⟩ ⟨2⟩ = false) (by decide +kernel)
  exact ⟨s, s, ⟨[⟨2⟩]⟩, ⟨{}, parameterSession, replies, hsession⟩, eq_ok_of_toOption hrun, ⟨2⟩,
    List.mem_cons_self, unstamped⟩

end Store

end ShaderTypes
