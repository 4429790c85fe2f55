import PatternBuilder.Proofs.Expression.Leaves

namespace PatternBuilder

namespace Expression

variable {e e' : Expression} {c : Call}

variable [Property.Engine]

inductive Step (e : Expression) : Call → Expression → Prop
  | setFlag (f : Flag) : Step e (.setFlag f) (e.setFlag f)
  | leaf {c : Call} {el : Element} (hc : c.leaf? = some el) (ha : e.level.Admits el)
      (hr : e.Finds el) :
      Step e c ((e.push el).setUnicodeFor el)
  | anchor {a : Anchor} {r : Registry} (hr : e.registry.addAnchor a = .ok r) :
      Step e (.anchor a) { e with registry := r, level := e.level.place (.anchor a) }
  | openComposite {kind : Composite} {r : Registry} (hr : e.registry.openComposite kind = .ok r) :
      Step e (.openComposite kind)
        { e with registry := r, level := {}, frames := ⟨kind, e.level⟩ :: e.frames }
  | close {kind : Composite} {outer : Level} {frames : List Frame}
      (hf : e.frames = ⟨kind, outer⟩ :: frames) (hp : e.level.pending = none)
      (ha : outer.Admits (.composite kind e.level.elements)) :
      Step e .close { e with level := outer.push (.composite kind e.level.elements), frames }
  | quantify {q : Quantifier} (hq : countError? q = none) (hp : e.level.pending = none) :
      Step e (.quantify q) { e with level := { e.level with pending := some q } }
  | splice {other : Expression} {options : SpliceOptions} {r : Registry} (hf : other.frames = [])
      (hp : other.level.pending = none)
      (hr : (Element.nodesAll (e.splicedElements other options)).foldlM Registry.adopt
        e.registry = .ok r) :
      Step e (.splice other options)
        (({ e with
            registry := r
            flags := if options.ignoreFlags then e.flags else e.flags.union other.flags }.push
          (.subexpression (e.splicedElements other options))).setUnicodeFor
          (.subexpression (e.splicedElements other options)))

theorem apply_eq_ok : e.apply c = .ok e' ↔ Step e c e' := by
  constructor
  · intro h
    cases hc : c.leaf? with
    | some el =>
      obtain ⟨ha, hr, rfl⟩ := (apply_leaf_eq_ok hc).mp h
      exact .leaf hc ha hr
    | none =>
      cases c with
      | setFlag f =>
        cases h
        exact .setFlag f
      | anchor a =>
        obtain ⟨r, hr, rfl⟩ := addAnchor_eq_ok.mp h
        exact .anchor hr
      | literal l =>
        obtain ⟨el, hl, -⟩ := addLiteral_eq_ok.mp h
        simp [Call.leaf?, hl, Except.toOption] at hc
      | openComposite kind =>
        obtain ⟨r, hr, rfl⟩ := openComposite_eq_ok.mp h
        exact .openComposite hr
      | close =>
        obtain ⟨kind, outer, frames, hf, hp, ha, rfl⟩ := close_eq_ok.mp h
        exact .close hf hp ha
      | quantify q =>
        obtain ⟨hq, hp, rfl⟩ := quantify_eq_ok.mp h
        exact .quantify hq hp
      | splice other options =>
        obtain ⟨hf, hp, r, hr, rfl⟩ := splice_eq_ok.mp h
        exact .splice hf hp hr
      | _ => cases hc
  · intro h
    cases h with
    | setFlag f => rfl
    | leaf hc ha hr => exact (apply_leaf_eq_ok hc).mpr ⟨ha, hr, rfl⟩
    | anchor hr => exact addAnchor_eq_ok.mpr ⟨_, hr, rfl⟩
    | openComposite hr => exact openComposite_eq_ok.mpr ⟨_, hr, rfl⟩
    | close hf hp ha => exact close_eq_ok.mpr ⟨_, _, _, hf, hp, ha, rfl⟩
    | quantify hq hp => exact quantify_eq_ok.mpr ⟨hq, hp, rfl⟩
    | splice hf hp hr => exact splice_eq_ok.mpr ⟨hf, hp, _, hr, rfl⟩

theorem run_cons {c : Call} {cs : List Call} :
    e.run (c :: cs) = .ok e' ↔ ∃ e₁, e.apply c = .ok e₁ ∧ e₁.run cs = .ok e' := by
  simp only [run, List.foldlM_cons, bind_eq_ok]

theorem run_preserves {P : Expression → Prop}
    (hP : ∀ {e e' : Expression} {c : Call}, P e → e.apply c = .ok e' → P e') {cs : List Call}
    (he : P e) (h : e.run cs = .ok e') : P e' := by
  induction cs generalizing e with
  | nil =>
    cases h
    exact he
  | cons c cs ih =>
    obtain ⟨e₁, h₁, hrest⟩ := run_cons.mp h
    exact ih (hP he h₁) hrest

theorem run_append {cs ds : List Call} :
    e.run (cs ++ ds) = .ok e' ↔ ∃ e₁, e.run cs = .ok e₁ ∧ e₁.run ds = .ok e' :=
  foldlM_append_eq_ok

/-- Tries steps one after the other; one that is refused leaves everything as it is. -/
def attempt (e : Expression) (calls : List Call) : Expression :=
  calls.foldl (fun e c ↦ (e.apply c).toOption.getD e) e

def accepted (e : Expression) : List Call → List Call
  | [] => []
  | c :: calls =>
    match e.apply c with
    | .ok e' => c :: accepted e' calls
    | .error _ => accepted e calls

theorem run_accepted (e : Expression) (calls : List Call) :
    e.run (e.accepted calls) = .ok (e.attempt calls) := by
  induction calls generalizing e with
  | nil => rfl
  | cons c calls ih =>
    cases h : e.apply c with
    | ok e₁ =>
      rw [accepted, h, attempt, List.foldl_cons, h]
      exact run_cons.mpr ⟨e₁, h, ih e₁⟩
    | error error =>
      rw [accepted, h, attempt, List.foldl_cons, h]
      exact ih e

end Expression

end PatternBuilder
