import PatternBuilder.Expression.Call

namespace PatternBuilder

section

variable {α ε : Type} {p : Prop} [Decidable p] {error : ε} {a b : α}

theorem ite_error_eq_ok :
    (if p then .error error else .ok a : Except ε α) = .ok b ↔ ¬p ∧ a = b := by
  split <;> simp_all

theorem ite_ok_eq_ok : (if p then .ok a else .error error : Except ε α) = .ok b ↔ p ∧ a = b := by
  split <;> simp_all

end

theorem map_eq_ok {α β ε : Type} {f : α → β} {x : Except ε α} {b : β} :
    x.map f = .ok b ↔ ∃ a, x = .ok a ∧ b = f a := by
  cases x <;> simp [Except.map, eq_comm]

theorem bind_eq_ok {α β ε : Type} {f : α → Except ε β} {x : Except ε α} {b : β} :
    x >>= f = .ok b ↔ ∃ a, x = .ok a ∧ f a = .ok b := by
  cases x <;> simp [bind, Except.bind]

theorem foldlM_append_eq_ok {α σ ε : Type} {f : σ → α → Except ε σ} {xs ys : List α} {s u : σ} :
    (xs ++ ys).foldlM f s = .ok u ↔ ∃ t, xs.foldlM f s = .ok t ∧ ys.foldlM f t = .ok u := by
  rw [List.foldlM_append, bind_eq_ok]

namespace Level

def Admits (l : Level) (e : Element) : Prop := l.pending = none ∨ e.isQuantifiable = true

theorem pushChecked_eq_ok {l l' : Level} {e : Element} :
    l.pushChecked e = .ok l' ↔ l.Admits e ∧ l' = l.push e := by
  unfold pushChecked Admits
  split
  · rename_i q hq
    split <;> simp_all [@eq_comm _ l']
  · simp_all [@eq_comm _ l']

theorem quantify_eq_ok {l l' : Level} {q : Quantifier} :
    l.quantify q = .ok l' ↔ l.pending = none ∧ l' = { l with pending := some q } := by
  unfold quantify
  split <;> simp_all [@eq_comm _ l']

end Level

namespace Expression

variable {e e' : Expression}

theorem pushChecked_eq_ok {el : Element} :
    e.pushChecked el = .ok e' ↔ e.level.Admits el ∧ e' = e.push el := by
  simp only [pushChecked, map_eq_ok, Level.pushChecked_eq_ok]
  constructor
  · rintro ⟨_, ⟨ha, rfl⟩, rfl⟩
    exact ⟨ha, rfl⟩
  · rintro ⟨ha, rfl⟩
    exact ⟨_, ⟨ha, rfl⟩, rfl⟩

theorem quantify_eq_ok {q : Quantifier} :
    e.quantify q = .ok e' ↔ countError? q = none ∧ e.level.pending = none ∧
      e' = { e with level := { e.level with pending := some q } } := by
  unfold quantify
  split
  · simp_all
  · simp only [map_eq_ok, Level.quantify_eq_ok]
    constructor
    · rintro ⟨_, ⟨hp, rfl⟩, rfl⟩
      exact ⟨‹_›, hp, rfl⟩
    · rintro ⟨-, hp, rfl⟩
      exact ⟨_, ⟨hp, rfl⟩, rfl⟩

theorem addAnchor_eq_ok {a : Anchor} :
    e.addAnchor a = .ok e' ↔ ∃ r, e.registry.addAnchor a = .ok r ∧
      e' = { e with registry := r, level := e.level.place (.anchor a) } :=
  map_eq_ok

theorem openComposite_eq_ok {kind : Composite} :
    e.openComposite kind = .ok e' ↔ ∃ r, e.registry.openComposite kind = .ok r ∧
      e' = { e with registry := r, level := {}, frames := ⟨kind, e.level⟩ :: e.frames } :=
  map_eq_ok

theorem close_eq_ok :
    e.close = .ok e' ↔ ∃ kind outer frames, e.frames = ⟨kind, outer⟩ :: frames ∧
      e.level.pending = none ∧ outer.Admits (.composite kind e.level.elements) ∧
      e' = { e with level := outer.push (.composite kind e.level.elements), frames } := by
  unfold close
  split
  · simp_all
  · rename_i kind outer frames hf
    split
    · simp_all
    · rename_i hp
      simp only [map_eq_ok, Level.pushChecked_eq_ok]
      constructor
      · rintro ⟨_, ⟨ha, rfl⟩, rfl⟩
        exact ⟨kind, outer, frames, hf, hp, ha, rfl⟩
      · rintro ⟨_, _, _, hf', -, ha, rfl⟩
        rw [hf, List.cons.injEq, Frame.mk.injEq] at hf'
        obtain ⟨⟨rfl, rfl⟩, rfl⟩ := hf'
        exact ⟨_, ⟨ha, rfl⟩, rfl⟩

theorem addLiteral_eq_ok [Property.Engine] {l : Literal} :
    e.addLiteral l = .ok e' ↔ ∃ el, l.element = .ok el ∧ e' = (e.push el).setUnicodeFor el :=
  map_eq_ok

theorem backreference_eq_ok {i : Nat} :
    e.backreference i = .ok e' ↔ 0 < i ∧ i ≤ e.captureCount ∧ e' = e.push (.backreference i) := by
  unfold backreference
  split
  · rename_i h
    simp only [reduceCtorEq, false_iff]
    omega
  · rename_i h
    simp only [Except.ok.injEq]
    constructor
    · rintro rfl
      exact ⟨by omega, by omega, rfl⟩
    · rintro ⟨-, -, rfl⟩
      rfl

theorem namedBackreference_eq_ok {name : String} :
    e.namedBackreference name = .ok e' ↔
      name ∈ e.groupNames ∧ e' = e.push (.namedBackreference name) := by
  unfold namedBackreference
  split <;> simp_all [eq_comm]

theorem finishedElements_eq_ok {unfinished : Composite → BuildError} {es : List Element} :
    e.finishedElements unfinished = .ok es ↔
      e.frames = [] ∧ e.level.pending = none ∧ es = e.level.elements := by
  unfold finishedElements
  split <;> simp_all [eq_comm]

/-- The elements that a spliced expression leaves in its host. -/
def splicedElements (e other : Expression) (options : SpliceOptions) : List Element :=
  Element.relocateAll options e.captureCount other.level.elements

theorem splice_eq_ok {other : Expression} {options : SpliceOptions} :
    e.splice other options = .ok e' ↔ other.frames = [] ∧ other.level.pending = none ∧
      ∃ r, (Element.nodesAll (e.splicedElements other options)).foldlM Registry.adopt e.registry =
        .ok r ∧
      e' = ({ e with
          registry := r
          flags := if options.ignoreFlags then e.flags else e.flags.union other.flags }.push
        (.subexpression (e.splicedElements other options))).setUnicodeFor
          (.subexpression (e.splicedElements other options)) := by
  simp only [splice, bind_eq_ok, finishedElements_eq_ok, splicedElements]
  constructor
  · rintro ⟨_, ⟨hf, hp, rfl⟩, r, hr, he⟩
    exact ⟨hf, hp, r, hr, (Except.ok.inj he).symm⟩
  · rintro ⟨hf, hp, r, hr, rfl⟩
    exact ⟨_, ⟨hf, hp, rfl⟩, r, hr, rfl⟩

end Expression

end PatternBuilder
