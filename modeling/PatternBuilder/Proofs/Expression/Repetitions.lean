import PatternBuilder.Proofs.Expression.Unicode
import PatternBuilder.Proofs.Expression.WellFormed

namespace PatternBuilder

namespace Element

def IsRepeatable : Element → Prop
  | quantified _ _ | boundary _ | anchor _ | noop | composite (.look _) _ => False
  | _ => True

def repetitions (es : List Element) : Nat := (nodesAll es).countP isQuantified

theorem isRepeatable_iff {e : Element} :
    e.IsRepeatable ↔ e.isQuantifiable = true ∧ e.isQuantified = false := by
  cases e with
  | composite kind es =>
    cases kind <;> simp [IsRepeatable, isQuantifiable, isQuantified, Composite.isLook]
  | _ => simp [IsRepeatable, isQuantifiable, isQuantified]

theorem repetitions_nil : repetitions [] = 0 := rfl

theorem repetitions_append (es fs : List Element) :
    repetitions (es ++ fs) = repetitions es + repetitions fs := by
  rw [repetitions, nodesAll_append, List.countP_append, repetitions, repetitions]

theorem repetitions_singleton (e : Element) :
    repetitions [e] = repetitions e.children + e.isQuantified.toNat := by
  rw [repetitions, nodesAll, nodesAll, List.append_nil, nodes_eq_cons, List.countP_cons,
    repetitions]
  cases e.isQuantified <;> rfl

theorem repetitions_quantifiedBy (e : Element) (q : Option Quantifier) :
    repetitions [e.quantifiedBy q] = repetitions [e] + q.isSome.toNat := by
  cases q with
  | none => rfl
  | some q => exact repetitions_singleton (quantified q e)

theorem repetitions_of_isLeaf {e : Element} (h : e.isLeaf = true) : repetitions [e] = 0 := by
  have hbare := isBare_of_isLeaf h
  rw [repetitions_singleton, hbare.children, hbare.isQuantified]
  rfl

theorem repetitions_relocateAll (options : SpliceOptions) (offset : Nat) (es : List Element) :
    repetitions (relocateAll options offset es) = repetitions es := by
  rw [repetitions, nodesAll_relocate, List.countP_map, repetitions]
  have h := funext fun e ↦ (moved_relocate options offset e).isQuantified
  exact congrArg (List.countP · (nodesAll es)) h

end Element

def Level.quantifiers (l : Level) : Nat := Element.repetitions l.elements + l.pending.isSome.toNat

theorem Level.quantifiers_of_pending_none {l : Level} (hp : l.pending = none) :
    l.quantifiers = Element.repetitions l.elements := by
  rw [quantifiers, hp]
  rfl

theorem Level.quantifiers_push (l : Level) (el : Element) :
    (l.push el).quantifiers = l.quantifiers + Element.repetitions [el] := by
  simp only [quantifiers, push, Element.repetitions_append, Element.repetitions_quantifiedBy,
    Option.isSome_none, Bool.toNat_false]
  omega

namespace Expression

def waiting (e : Expression) : Nat := e.levels.countP fun (_, level) ↦ level.pending.isSome

def quantifiers (e : Expression) : Nat :=
  e.level.quantifiers + e.frames.foldr (fun f n ↦ f.outer.quantifiers + n) 0

theorem repetitions_add_waiting (e : Expression) :
    Element.repetitions e.elements + e.waiting = e.quantifiers := by
  have h (level : Level) (frames : List Frame) :
      Element.repetitions ((levelsFrom level frames).reverse.flatMap fun (_, l) ↦ l.elements) +
          (levelsFrom level frames).reverse.countP (fun (_, l) ↦ l.pending.isSome) =
        level.quantifiers + frames.foldr (fun f n ↦ f.outer.quantifiers + n) 0 := by
    induction frames generalizing level with
    | nil => cases hp : level.pending <;> simp [levelsFrom, Level.quantifiers, hp]
    | cons frame frames ih =>
      have ih := ih frame.outer
      rw [levelsFrom, List.reverse_cons, List.flatMap_append, Element.repetitions_append,
        List.countP_append, List.foldr_cons, ← ih, Level.quantifiers]
      cases hp : level.pending <;> simp [hp] <;> omega
  exact h e.level e.frames

theorem quantifiers_push (e : Expression) (el : Element) :
    (e.push el).quantifiers = e.quantifiers + Element.repetitions [el] := by
  change (e.level.push el).quantifiers + _ = e.level.quantifiers + _ + _
  rw [Level.quantifiers_push, Nat.add_right_comm]
  rfl

theorem quantifiers_setUnicodeFor (e : Expression) (el : Element) :
    (e.setUnicodeFor el).quantifiers = e.quantifiers := by
  rw [quantifiers, level_setUnicodeFor, frames_setUnicodeFor, quantifiers]

end Expression

namespace Call

def isQuantify : Call → Bool
  | quantify _ => true
  | _ => false

def splicedElements : Call → List Element
  | splice other _ => other.elements
  | _ => []

theorem quantifies_nothing [Property.Engine] {el : Element} {c : Call} (hc : c.leaf? = some el) :
    c.isQuantify.toNat + Element.repetitions c.splicedElements = 0 := by
  cases c with
  | quantify | splice => cases hc
  | _ => rfl

end Call

namespace Expression

variable {e e' : Expression} {c : Call} {cs : List Call}

section

variable [Property.Engine]

/-- A step adds the quantifiers that it brings, and loses none. -/
theorem quantifiers_apply (h : e.apply c = .ok e') :
    e'.quantifiers =
      e.quantifiers + (c.isQuantify.toNat + Element.repetitions c.splicedElements) := by
  cases apply_eq_ok.mp h with
  | setFlag => rfl
  | leaf hc =>
    rw [quantifiers_setUnicodeFor, quantifiers_push, Call.quantifies_nothing hc,
      Element.repetitions_of_isLeaf (Call.isLeaf_of_leaf? hc)]
  | anchor =>
    have ha (a : Anchor) : Element.repetitions [.anchor a] = 0 := rfl
    simp only [quantifiers, Level.quantifiers, Level.place, Element.repetitions_append, ha]
    rfl
  | openComposite =>
    have hempty : ({} : Level).quantifiers = 0 := rfl
    simp only [quantifiers, List.foldr_cons, hempty, Nat.zero_add]
    rfl
  | close hf hp =>
    -- nothing waits inside the composite any more, and what waited around it is bound to it
    simp only [quantifiers, hf, List.foldr_cons, Level.quantifiers_push,
      Element.repetitions_singleton, Element.children, Element.isQuantified, Call.isQuantify,
      Call.splicedElements, Element.repetitions_nil, Level.quantifiers_of_pending_none hp,
      Bool.toNat_false]
    omega
  | quantify _ hp =>
    simp only [quantifiers, Level.quantifiers, hp, Call.isQuantify, Call.splicedElements,
      Element.repetitions_nil, Option.isSome_none, Option.isSome_some, Bool.toNat_false,
      Bool.toNat_true]
    omega
  | @splice other options _ hf =>
    rw [quantifiers_setUnicodeFor, quantifiers_push, Element.repetitions_singleton,
      Element.children, splicedElements, Element.repetitions_relocateAll,
      ← elements_of_frames_nil hf]
    simp only [quantifiers, Element.isQuantified, Call.isQuantify, Call.splicedElements,
      Bool.toNat_false]
    omega

theorem quantifiers_run (h : e.run cs = .ok e') :
    e'.quantifiers = e.quantifiers +
      (cs.countP Call.isQuantify + Element.repetitions (cs.flatMap Call.splicedElements)) := by
  induction cs generalizing e with
  | nil =>
    cases h
    rfl
  | cons c cs ih =>
    obtain ⟨e₁, h₁, hrest⟩ := run_cons.mp h
    rw [ih hrest, quantifiers_apply h₁, List.countP_cons, List.flatMap_cons,
      Element.repetitions_append]
    cases c.isQuantify <;> simp only [Bool.toNat_false, Bool.toNat_true, if_true,
      Bool.false_eq_true, if_false] <;> omega

theorem IsWellFormed.of_mem_levels (h : e.IsWellFormed) {kind : Option Composite} {level : Level}
    (hl : (kind, level) ∈ e.levels) : level.IsWellFormed := by
  have hmem : ∀ (top : Level) (frames : List Frame), (kind, level) ∈ levelsFrom top frames →
      level = top ∨ ∃ f ∈ frames, level = f.outer := by
    intro top frames
    induction frames generalizing top with
    | nil => simp [levelsFrom]
    | cons frame frames ih =>
      simp only [levelsFrom, List.mem_cons, Prod.mk.injEq]
      rintro (⟨-, rfl⟩ | hin)
      · exact .inl rfl
      · rcases ih _ hin with rfl | ⟨f, hf, rfl⟩
        · exact .inr ⟨frame, .inl rfl, rfl⟩
        · exact .inr ⟨f, .inr hf, rfl⟩
  rw [levels, List.mem_reverse] at hl
  rcases hmem _ _ hl with rfl | ⟨f, hf, rfl⟩
  · exact h.level
  · exact (h.frames f hf).2

/-- Every quantifier in an expression makes sense and is bound to something that can be repeated;
and the quantifiers there are, waiting ones included, are those that the accepted steps have
asked for or spliced. -/
theorem quantifiers_bound_once :
    (∀ e : Expression, e.Reachable → ∀ kind level, (kind, level) ∈ e.levels →
        ∀ q inner, Element.quantified q inner ∈ Element.nodesAll level.elements →
          q.IsValid ∧ inner.IsRepeatable) ∧
      ∀ calls, (empty.accepted calls).countP Call.isQuantify +
          Element.repetitions ((empty.accepted calls).flatMap Call.splicedElements) =
        Element.repetitions (empty.attempt calls).elements + (empty.attempt calls).waiting := by
  constructor
  · intro e he kind level hl q inner hn
    have hw := (he.isWellFormed.of_mem_levels hl).elements
    obtain ⟨hq, hr⟩ := Element.forall_isWellFormed_iff.mp hw _ hn
    exact ⟨hq, Element.isRepeatable_iff.mpr hr⟩
  · intro calls
    have hrun := quantifiers_run (run_accepted empty calls)
    have hempty : empty.quantifiers = 0 := rfl
    rw [repetitions_add_waiting, hrun, hempty, Nat.zero_add]

end

theorem quantifiers_bound_once_around_refusal :
    ∃ _ : Property.Engine, ∃ other,
      empty.run [.quantify (.between 1 3 true), .atom .digit] = .ok other ∧
      other.Reachable ∧ (1 < 3 ∧ (Element.atom .digit).IsRepeatable) ∧
      Element.repetitions (empty.attempt [.quantify .optional, .quantify (.exactly 2),
        .openComposite .group, .splice other {}, .quantify (.exactly 0),
        .quantify (.exactly 2)]).elements + 2 = 3 := by
  let engine : Property.Engine := default
  let other : Expression :=
    { level := { elements := [.quantified (.between 1 3 true) (.atom .digit)] } }
  have hr : other.Reachable := Reachable.empty.run
    [.quantify (.between 1 3 true), .atom .digit] (by simp [Call.spliced?]) rfl
  have hbound := quantifiers_bound_once.1 other hr none other.level List.mem_cons_self
    (.between 1 3 true) (.atom .digit) List.mem_cons_self
  have hcount := quantifiers_bound_once.2 [.quantify .optional, .quantify (.exactly 2),
    .openComposite .group, .splice other {}, .quantify (.exactly 0), .quantify (.exactly 2)]
  exact ⟨engine, other, rfl, hr, hbound, hcount.symm⟩

end Expression

end PatternBuilder
