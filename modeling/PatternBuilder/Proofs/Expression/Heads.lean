import PatternBuilder.Expression.Splice

namespace PatternBuilder

def Composite.inScope (scope : String) : Composite → Composite
  | namedCapture name => namedCapture (scope ++ name)
  | kind => kind

namespace Element

def head : Element → Element
  | quantified q _ => quantified q noop
  | composite kind _ => composite kind []
  | subexpression _ => subexpression []
  | e => e

def heads (es : List Element) : List Element := (nodesAll es).map head

def group? : Element → Option (Option String)
  | composite .capture _ => some none
  | composite (.namedCapture name) _ => some (some name)
  | _ => none

def groups (ns : List Element) : List (Option String) := ns.filterMap group?

def anchor? : Element → Option Anchor
  | anchor a => some a
  | _ => none

def isQuantified : Element → Bool
  | quantified _ _ => true
  | _ => false

def isReference : Element → Bool
  | backreference _ | namedBackreference _ => true
  | _ => false

/-- Whether the node, if it refers to a group, refers to one of the given groups. -/
def Resolves (gs : List (Option String)) : Element → Prop
  | backreference i => 0 < i ∧ i ≤ gs.length
  | namedBackreference name => some name ∈ gs
  | _ => True

/-- Whether every node of a sequence finds its group before it, where the given groups are
opened before all of them. -/
def AllResolve (gs : List (Option String)) : List Element → Prop
  | [] => True
  | n :: ns => n.Resolves gs ∧ AllResolve (gs ++ n.group?.toList) ns

theorem heads_append (es fs : List Element) : heads (es ++ fs) = heads es ++ heads fs := by
  simp [heads]

theorem heads_cons (e : Element) (es : List Element) :
    heads (e :: es) = e.head :: heads e.children ++ heads es := by
  simp [heads, nodesAll, nodes_eq_cons]

theorem heads_nil : heads [] = [] := rfl

theorem heads_singleton (e : Element) : heads [e] = e.head :: heads e.children := by
  rw [heads_cons, heads_nil, List.append_nil]

theorem heads_composite (kind : Composite) (es : List Element) :
    heads [composite kind es] = composite kind [] :: heads es := heads_singleton _

theorem heads_subexpression (es : List Element) :
    heads [subexpression es] = subexpression [] :: heads es := heads_singleton _

def quantifierHead (q : Option Quantifier) : List Element := (q.map (quantified · noop)).toList

theorem heads_quantifiedBy (e : Element) (q : Option Quantifier) :
    heads [e.quantifiedBy q] = quantifierHead q ++ heads [e] := by
  cases q with
  | none => rfl
  | some q => exact heads_singleton _

theorem mem_heads_quantifiedBy {e n : Element} (q : Option Quantifier) (h : n ∈ heads [e]) :
    n ∈ heads [e.quantifiedBy q] := by
  rw [heads_quantifiedBy]
  exact List.mem_append_right _ h

theorem group?_head (e : Element) : e.head.group? = e.group? := by
  cases e with
  | composite kind es => cases kind <;> rfl
  | _ => rfl

theorem groups_append (ns ms : List Element) : groups (ns ++ ms) = groups ns ++ groups ms :=
  List.filterMap_append

theorem groups_map_head (ns : List Element) : groups (ns.map head) = groups ns := by
  rw [groups, List.filterMap_map]
  exact congrArg (List.filterMap · ns) (funext group?_head)

theorem groups_heads (es : List Element) : groups (heads es) = groups (nodesAll es) :=
  groups_map_head _

theorem groups_quantifierHead (q : Option Quantifier) : groups (quantifierHead q) = [] := by
  cases q <;> rfl

theorem groups_cons (n : Element) (ns : List Element) :
    groups (n :: ns) = n.group?.toList ++ groups ns := by
  cases hn : n.group? <;> simp [groups, hn]

theorem allResolve_append {gs : List (Option String)} {ns ms : List Element} :
    AllResolve gs (ns ++ ms) ↔ AllResolve gs ns ∧ AllResolve (gs ++ groups ns) ms := by
  induction ns generalizing gs with
  | nil => simp [AllResolve, groups]
  | cons n ns ih =>
    rw [List.cons_append, AllResolve, AllResolve, ih, groups_cons, List.append_assoc, and_assoc]

theorem AllResolve.resolves {ns before after : List Element} {n : Element}
    (h : AllResolve [] ns) (hn : ns = before ++ n :: after) : n.Resolves (groups before) := by
  rw [hn, allResolve_append] at h
  exact h.2.1

variable (options : SpliceOptions) (offset : Nat)

theorem nodesAll_relocateAll {es : List Element}
    (h : ∀ e ∈ es, (e.relocate options offset).nodes = e.nodes.map (relocate options offset)) :
    nodesAll (relocateAll options offset es) = (nodesAll es).map (relocate options offset) := by
  induction es with
  | nil => rfl
  | cons e es ih =>
    rw [relocateAll, nodesAll, nodesAll, List.map_append, h e List.mem_cons_self,
      ih fun f hf ↦ h f (List.mem_cons_of_mem e hf)]

theorem relocate_composite (kind : Composite) (es : List Element) :
    (composite kind es).relocate options offset =
      composite (kind.inScope options.scope) (relocateAll options offset es) := by
  cases kind <;> rfl

theorem nodes_relocate (e : Element) :
    (e.relocate options offset).nodes = e.nodes.map (relocate options offset) := by
  induction e with
  | anchor a => cases ha : options.ignoreAnchors <;> simp [relocate, ha, nodes]
  | quantified q e ih => simp [relocate, nodes, ih]
  | composite kind es ih =>
    rw [relocate_composite, nodes, nodes, List.map_cons, relocate_composite,
      nodesAll_relocateAll options offset ih]
  | subexpression es ih => simp [relocate, nodes, nodesAll_relocateAll options offset ih]
  | _ => rfl

theorem nodesAll_relocate (es : List Element) :
    nodesAll (relocateAll options offset es) = (nodesAll es).map (relocate options offset) :=
  nodesAll_relocateAll options offset fun e _ ↦ nodes_relocate options offset e

/-- What becomes of a node in a host, the elements below it apart. -/
structure Moved (e e' : Element) : Prop where
  head : e'.head = e.head.relocate options offset
  group? : e'.group? = e.group?.map (Option.map (options.scope ++ ·))
  anchor? : e'.anchor? = if options.ignoreAnchors then none else e.anchor?
  isQuantifiable : e'.isQuantifiable = e.isQuantifiable
  isQuantified : e'.isQuantified = e.isQuantified
  isUnicodeOnly : e'.isUnicodeOnly = e.isUnicodeOnly

theorem moved_relocate (e : Element) : Moved options offset e (e.relocate options offset) := by
  cases e with
  | anchor a =>
    cases ha : options.ignoreAnchors with
    | false =>
      have hkept : (anchor a).relocate options offset = anchor a := by simp [relocate, ha]
      rw [hkept]
      exact ⟨hkept.symm, rfl, by rw [ha]; rfl, rfl, rfl, rfl⟩
    | true =>
      have hdropped : (anchor a).relocate options offset = noop := by simp [relocate, ha]
      rw [hdropped]
      exact ⟨hdropped.symm, rfl, by rw [ha]; rfl, rfl, rfl, rfl⟩
  | composite kind es => cases kind <;> exact ⟨rfl, rfl, (ite_self none).symm, rfl, rfl, rfl⟩
  | _ => exact ⟨rfl, rfl, (ite_self none).symm, rfl, rfl, rfl⟩

theorem heads_relocateAll (es : List Element) :
    heads (relocateAll options offset es) = (heads es).map (relocate options offset) := by
  rw [heads, heads, nodesAll_relocate, List.map_map, List.map_map]
  exact congrArg (List.map · (nodesAll es)) (funext fun e ↦ (moved_relocate options offset e).head)

theorem groups_map_relocate (ns : List Element) :
    groups (ns.map (relocate options offset)) =
      (groups ns).map (Option.map (options.scope ++ ·)) := by
  rw [groups, List.filterMap_map, groups, List.map_filterMap]
  exact congrArg (List.filterMap · ns) (funext fun n ↦ (moved_relocate options offset n).group?)

theorem Resolves.relocate {gs hs : List (Option String)} {n : Element} (h : n.Resolves gs)
    (ho : hs.length = offset) :
    (n.relocate options offset).Resolves (hs ++ gs.map (Option.map (options.scope ++ ·))) := by
  cases n with
  | anchor a => cases ha : options.ignoreAnchors <;> simp [Element.relocate, ha, Resolves]
  | backreference i =>
    obtain ⟨hi, hle⟩ := h
    refine ⟨Nat.add_pos_left hi offset, ?_⟩
    rw [List.length_append, List.length_map, ho]
    omega
  | namedBackreference name =>
    exact List.mem_append_right _ (List.mem_map.mpr ⟨some name, h, rfl⟩)
  | composite kind es => cases kind <;> trivial
  | _ => trivial

theorem AllResolve.relocate {gs hs : List (Option String)} {ns : List Element}
    (h : AllResolve gs ns) (ho : hs.length = offset) :
    AllResolve (hs ++ gs.map (Option.map (options.scope ++ ·)))
      (ns.map (Element.relocate options offset)) := by
  induction ns generalizing gs with
  | nil => trivial
  | cons n ns ih =>
    refine ⟨h.1.relocate options offset ho, ?_⟩
    have hg : (n.relocate options offset).group?.toList =
        n.group?.toList.map (Option.map (options.scope ++ ·)) := by
      rw [(moved_relocate options offset n).group?]
      cases n.group? <;> rfl
    rw [hg, List.append_assoc, ← List.map_append]
    exact ih h.2

end Element

end PatternBuilder
