import PatternBuilder.Proofs.Expression.Coherence
import PatternBuilder.Proofs.Expression.Unicode
import PatternBuilder.Proofs.Expression.WellFormed

namespace PatternBuilder

namespace Element

def call? : Element → Option Call
  | atom a => some (.atom a)
  | boundary b => some (.boundary b)
  | anchor a => some (.anchor a)
  | char c => some (.literal (.char c))
  | string s => some (.literal (.string s))
  | range a b => some (.literal (.range a b))
  | anyOfChars s => some (.literal (.anyOfChars s))
  | anythingButChars s => some (.literal (.anythingButChars s))
  | anythingButString s => some (.literal (.anythingButString s))
  | anythingButRange a b => some (.literal (.anythingButRange a b))
  | controlChar c => some (.literal (.controlChar c))
  | code form digits => some (.literal (.code form digits))
  | property negated name => some (.literal (.property negated name))
  | backreference i => some (.backreference i)
  | namedBackreference name => some (.namedBackreference name)
  | noop | quantified _ _ | composite _ _ | subexpression _ => none

mutual

/-- The steps that build an element: a quantifier is asked for before what it repeats, a composite
is opened before its children and closed behind them. -/
def replay : Element → List Call
  | quantified q e => .quantify q :: replay e
  | composite kind es => .openComposite kind :: (replayAll es ++ [.close])
  | e => e.call?.toList

def replayAll : List Element → List Call
  | [] => []
  | e :: es => replay e ++ replayAll es

end

/-- The node is one that a step asks for with an argument that passes, where references are left to
the nodes around them. -/
def IsAcceptable [Property.Engine] : Element → Prop
  | noop | subexpression _ => False
  | backreference _ | namedBackreference _ => True
  | n => n.IsValid

/-- What the builder can make: every node passes by itself, and they agree with each other. -/
structure Buildable [Property.Engine] (es : List Element) : Prop where
  acceptable : ∀ n ∈ nodesAll es, n.IsAcceptable
  coherent : Coherent (heads es)

variable {e : Element}

theorem mem_nodes_self (e : Element) : e ∈ e.nodes := nodes_eq_cons e ▸ List.mem_cons_self

theorem ofText_eq_string {s : String} (h : 2 ≤ s.toList.length) : Literal.ofText s = string s := by
  unfold Literal.ofText
  split
  · rename_i hc
    rw [hc] at h
    exact absurd h (by decide : ¬2 ≤ 1)
  · rfl

theorem element_of_call? [Property.Engine] {l : Literal} (hc : e.call? = some (.literal l))
    (ha : e.IsAcceptable) : l.element = .ok e := by
  cases e with
  | char c =>
    cases hc
    rfl
  | string s =>
    cases hc
    have hne : ¬s.isEmpty = true := by
      intro he
      rw [String.isEmpty_iff.mp he] at ha
      exact absurd ha (by decide : ¬2 ≤ 0)
    exact (if_neg hne).trans (congrArg Except.ok (ofText_eq_string ha))
  | range a b | anythingButRange a b =>
    cases hc
    exact if_neg (Char.not_le.mpr ha)
  | anyOfChars s | anythingButChars s | anythingButString s =>
    cases hc
    exact if_neg (mt String.isEmpty_iff.mp ha)
  | controlChar c =>
    cases hc
    have hup : c.isUpper = true := ha
    have halpha : c.isAlpha = true := by rw [isAlpha_eq, hup, Bool.true_or]
    simp only [Literal.element, halpha, if_true, toUpper_eq_self hup]
  | code form digits | property negated name =>
    cases hc
    exact if_pos ha
  | _ => cases hc

theorem isLiteral_of_call? {l : Literal} (hc : e.call? = some (.literal l)) :
    e.isLiteral = true := by
  cases e <;> first | rfl | cases hc

theorem leaf?_of_call? [Property.Engine] {c : Call} (hc : e.call? = some c)
    (hl : ∀ l, c ≠ .literal l) (ha : ∀ a, c ≠ .anchor a) : c.leaf? = some e := by
  cases e with
  | noop | quantified | composite | subexpression => cases hc
  | atom | boundary | backreference | namedBackreference =>
    cases hc
    rfl
  | anchor a =>
    cases hc
    exact absurd rfl (ha a)
  | _ =>
    cases hc
    exact absurd rfl (hl _)

end Element

theorem Level.place_eq_push {l : Level} (hp : l.pending = none) (el : Element) :
    l.place el = l.push el := by
  rw [place, push, hp]
  rfl

def Flags.forNodes (s : Flags) (ns : List Element) : Flags :=
  if ns.any Element.isUnicodeOnly then s.insert .unicode else s

theorem Flags.forNodes_append (s : Flags) (ns ms : List Element) :
    s.forNodes (ns ++ ms) = (s.forNodes ns).forNodes ms := by
  unfold Flags.forNodes
  rw [List.any_append]
  cases ns.any Element.isUnicodeOnly with
  | false => rfl
  | true =>
    cases ms.any Element.isUnicodeOnly with
    | false => rfl
    | true =>
      have hu : (s.insert .unicode).contains .unicode = true := by rw [contains_insert]; rfl
      exact (insert_eq_self hu).symm

namespace Expression

open Element

def ofElements (es : List Element) : Expression where
  level := { elements := es }
  flags := ({} : Flags).forNodes (Element.heads es)
  registry := .ofNodes (Element.heads es)

variable {e e' : Expression} {ns : List Element} {el : Element}

/-- The expression after nodes were added to it, of which the innermost level shows the top. -/
def grown (e : Expression) (level : Level) (ns added : List Element) : Expression :=
  { e with
    level
    flags := e.flags.forNodes added
    registry := .ofNodes (ns ++ added) }

theorem grown_nil (hr : e.registry = .ofNodes ns) (hp : e.level.pending = none) :
    e.grown { elements := e.level.elements ++ [] } ns [] = e := by
  rw [grown, List.append_nil, List.append_nil, ← hr, ← hp]
  rfl

theorem grown_grown (level level' : Level) (added added' : List Element) :
    (e.grown level ns added).grown level' (ns ++ added) added' =
      e.grown level' ns (added ++ added') := by
  simp only [grown, Flags.forNodes_append, List.append_assoc]

theorem finds_of_coherent (hr : e.registry = .ofNodes ns) (h : Coherent (ns ++ [el])) :
    e.Finds el := by
  have hres : el.Resolves (Element.groups ns) := h.resolves.resolves rfl
  cases el with
  | backreference i =>
    refine ⟨hres.1, ?_⟩
    rw [captureCount, hr]
    exact hres.2
  | namedBackreference name =>
    change name ∈ e.registry.names
    rw [hr]
    exact List.reduceOption_mem_iff.mpr hres
  | _ => trivial

theorem push_setUnicodeFor_eq_grown (hr : e.registry = .ofNodes ns) (hl : el.isLeaf = true) :
    (e.push el).setUnicodeFor el = e.grown (e.level.push el) ns [el] := by
  have hbare := isBare_of_isLeaf hl
  have hreq : el.requiresUnicode = [el].any isUnicodeOnly := by
    rw [requiresUnicode, nodes_eq_cons, hbare.children, nodesAll]
  have hreg : e.registry = .ofNodes (ns ++ [el]) := by
    rw [hr, Registry.ofNodes_append_of_silent hbare.group? hbare.anchor?]
  rw [setUnicodeFor, hreq, grown, ← hreg, Flags.forNodes]
  split <;> rfl

section

variable [Property.Engine]

theorem apply_call? {c : Call} (hc : el.call? = some c) (hr : e.registry = .ofNodes ns)
    (h : Coherent (ns ++ [el])) (ha : el.IsAcceptable) (hadmits : e.level.Admits el) :
    e.apply c = .ok (e.grown (e.level.push el) ns [el]) := by
  cases c with
  | anchor a =>
    obtain rfl : el = .anchor a := by cases el <;> cases hc; rfl
    have hadopt := Registry.adopt_ofNodes h (by simp [group?])
    rw [← hr] at hadopt
    have hp : e.level.pending = none := hadmits.resolve_right Bool.false_ne_true
    rw [← Level.place_eq_push hp]
    exact addAnchor_eq_ok.mpr ⟨_, Registry.addAnchor_eq_ok.mpr hadopt, rfl⟩
  | literal l =>
    have hleaf := (isVerbatim_of_isLiteral (isLiteral_of_call? hc)).isLeaf
    rw [← push_setUnicodeFor_eq_grown hr hleaf]
    exact map_eq_ok.mpr ⟨el, element_of_call? hc ha, rfl⟩
  | _ =>
    have hleaf := leaf?_of_call? hc (by simp) (by simp)
    rw [← push_setUnicodeFor_eq_grown hr (Call.isLeaf_of_leaf? hleaf)]
    exact (apply_leaf_eq_ok hleaf).mpr ⟨hadmits, finds_of_coherent hr h, rfl⟩

/-- Replaying the element adds it to the innermost level, whatever nodes are there already, as long
as it agrees with them. -/
def Replays (el : Element) : Prop :=
  ∀ (e : Expression) (ns : List Element), e.registry = .ofNodes ns →
    Coherent (ns ++ Element.heads [el]) → e.level.Admits el →
    (el.isQuantified = true → e.level.pending = none) →
    e.run el.replay = .ok (e.grown (e.level.push el) ns (Element.heads [el]))

theorem Replays.all {es : List Element} (hes : ∀ el ∈ es, Replays el)
    (hr : e.registry = .ofNodes ns) (h : Coherent (ns ++ Element.heads es))
    (hp : e.level.pending = none) :
    e.run (replayAll es) =
      .ok (e.grown { elements := e.level.elements ++ es } ns (Element.heads es)) := by
  induction es generalizing e ns with
  | nil => exact congrArg Except.ok (grown_nil hr hp).symm
  | cons el es ih =>
    have hsplit : Element.heads (el :: es) = Element.heads [el] ++ Element.heads es :=
      Element.heads_append [el] es
    rw [hsplit, ← List.append_assoc] at h
    have hfirst := hes el List.mem_cons_self e ns hr h.of_append (.inl hp) fun _ ↦ hp
    have hrest := ih (e := e.grown (e.level.push el) ns (Element.heads [el]))
      (fun f hf ↦ hes f (List.mem_cons_of_mem el hf)) rfl h rfl
    rw [grown_grown, ← hsplit] at hrest
    refine run_append.mpr ⟨_, hfirst, hrest.trans ?_⟩
    simp [grown, Level.push, hp, quantifiedBy]

theorem Replays.quantified {q : Quantifier} (hq : q.IsValid) (hqe : el.isQuantifiable = true)
    (hqd : el.isQuantified = false) (hel : Replays el) :
    Replays (.quantified q el) := by
  intro e ns hr h _ hp
  have hp := hp rfl
  rw [heads_singleton] at h ⊢
  have hquantify : e.apply (.quantify q) =
      .ok { e with level := { e.level with pending := some q } } :=
    quantify_eq_ok.mpr ⟨countError?_eq_none.mpr hq, hp, rfl⟩
  -- the node of the quantifier is there as soon as it waits
  have hr' : e.registry = .ofNodes (ns ++ [.quantified q .noop]) := by
    rw [hr, Registry.ofNodes_append_of_silent rfl rfl]
  rw [List.append_cons] at h
  have hrun := hel { e with level := { e.level with pending := some q } }
    (ns ++ [.quantified q .noop]) hr' h (.inr hqe) (by simp [hqd])
  refine run_cons.mpr ⟨_, hquantify, hrun.trans ?_⟩
  simp [grown, Level.push, hp, quantifiedBy, Flags.forNodes, isUnicodeOnly, head, children]

theorem Replays.composite {kind : Composite} {es : List Element}
    (hv : (Element.composite kind es).IsValid) (hes : ∀ el ∈ es, Replays el) :
    Replays (.composite kind es) := by
  intro e ns hr h hadmits _
  rw [heads_composite] at h ⊢
  rw [List.append_cons] at h
  have hadopt : e.registry.openComposite kind = .ok (.ofNodes (ns ++ [.composite kind []])) := by
    rw [hr]
    refine Registry.adopt_ofNodes h.of_append fun name hname ↦ ?_
    cases kind with
    | namedCapture n =>
      cases hname
      exact hv
    | _ => cases hname
  let opened : Expression := { e with
    registry := .ofNodes (ns ++ [.composite kind []])
    level := {}
    frames := ⟨kind, e.level⟩ :: e.frames }
  have hopen : e.apply (.openComposite kind) = .ok opened :=
    openComposite_eq_ok.mpr ⟨_, hadopt, rfl⟩
  let filled := opened.grown { elements := es } (ns ++ [.composite kind []]) (Element.heads es)
  have hchildren : opened.run (replayAll es) = .ok filled :=
    Replays.all (e := opened) hes rfl h rfl
  have hclose : filled.apply .close =
      .ok { filled with level := e.level.push (.composite kind es), frames := e.frames } :=
    (close_eq_ok (e := filled)).mpr ⟨kind, e.level, e.frames, rfl, rfl, hadmits, rfl⟩
  refine run_cons.mpr ⟨opened, hopen, run_append.mpr ⟨filled, hchildren, ?_⟩⟩
  refine run_cons.mpr ⟨_, hclose, ?_⟩
  simp [filled, opened, grown, Flags.forNodes, isUnicodeOnly, run, pure, Except.pure]

/-- By induction over the tree: each node is reached in a state that holds just the nodes before
it. -/
theorem replays (h : ∀ n ∈ el.nodes, n.IsAcceptable) : Replays el := by
  induction el with
  | quantified q el ih =>
    obtain ⟨hq, hqe, hqd⟩ := h _ (mem_nodes_self _)
    exact .quantified hq hqe hqd (ih fun n hn ↦ h n (List.mem_cons_of_mem _ hn))
  | composite kind es ih =>
    refine .composite (h _ (mem_nodes_self _)) fun el hel ↦ ih el hel fun n hn ↦ ?_
    refine h n (List.mem_cons_of_mem _ ?_)
    rw [nodesAll_eq_flatMap]
    exact List.mem_flatMap.mpr ⟨el, hel, hn⟩
  | noop => exact absurd (h _ (mem_nodes_self _)) id
  | subexpression es => exact absurd (h _ (mem_nodes_self _)) id
  | _ =>
    intro e ns hr hc hadmits _
    exact run_cons.mpr
      ⟨_, apply_call? rfl hr hc (h _ (mem_nodes_self _)) hadmits, rfl⟩

/-- Replaying the nodes of a tree in their order builds the tree, whatever the engine knows. -/
theorem run_replay {es : List Element} (h : Buildable es) :
    empty.run (replayAll es) = .ok (ofElements es) := by
  have hall : ∀ el ∈ es, Replays el := by
    refine fun el hel ↦ replays fun n hn ↦ h.acceptable n ?_
    rw [nodesAll_eq_flatMap]
    exact List.mem_flatMap.mpr ⟨el, hel, hn⟩
  exact Replays.all hall (show empty.registry = .ofNodes [] from rfl) h.coherent rfl

end

theorem run_replay_nested_captures :
    ∃ _ : Property.Engine,
      Buildable [.anchor .start, .quantified (.between 1 3 true) (.composite .capture
        [.composite (.namedCapture "a") [.string "xy"], .backreference 1]),
        .namedBackreference "a", .property true "L"] ∧
      ∃ e, empty.run [.anchor .start, .quantify (.between 1 3 true), .openComposite .capture,
          .openComposite (.namedCapture "a"), .literal (.string "xy"), .close, .backreference 1,
          .close, .namedBackreference "a", .literal (.property true "L")] = .ok e ∧
        e.registry = ⟨["a"], 2, true, false⟩ := by
  let engine : Property.Engine := ⟨(· == "L"), fun _ c ↦ c.isAlpha⟩
  have h : Buildable [.anchor .start, .quantified (.between 1 3 true) (.composite .capture
      [.composite (.namedCapture "a") [.string "xy"], .backreference 1]),
      .namedBackreference "a", .property true "L"] := by
    refine ⟨?_, ?_, ?_, ?_⟩
    · simp only [nodesAll, nodes, List.cons_append, List.nil_append, List.forall_mem_cons]
      refine ⟨trivial, ⟨?_, rfl, rfl⟩, trivial, ?_, ?_, trivial, trivial, ?_, by simp⟩
      · exact (by decide : 1 < 3)
      · exact (by decide : isGroupName "a" = true)
      · exact (by decide : 2 ≤ "xy".toList.length)
      · exact Bool.and_eq_true_iff.mpr ⟨by decide, rfl⟩
    · simp [Element.heads, nodesAll, nodes, head, AllResolve, Resolves, group?]
    · decide
    · decide
  exact ⟨engine, h, _, run_replay h, rfl⟩

end Expression

end PatternBuilder
