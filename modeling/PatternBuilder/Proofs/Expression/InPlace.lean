import PatternBuilder.Proofs.Expression.Relocation
import PatternBuilder.Proofs.Expression.Unicode

namespace PatternBuilder

namespace Expression

/-- The levels and flags of an expression, as they are when the same steps are taken inside an open
group of the host: `built` has those of `inner` among those of the host. -/
structure Shaped (scope : String) (host inner built : Expression) : Prop where
  level : built.level = inner.level.relocate scope host.captureCount
  frames : built.frames =
    inner.frames.map (Frame.relocate scope host.captureCount) ++ ⟨.group, host.level⟩ :: host.frames
  flags : built.flags = host.flags.union inner.flags

/-- Also the registry is that of the host, after it has taken note of what was built. -/
structure Inside (scope : String) (host inner built : Expression) : Prop
    extends Shaped scope host inner built where
  records : inner.registry.Records inner.heads
  adopted : (inner.heads.map (Element.relocate (.keeping scope) host.captureCount)).foldlM
    Registry.adopt host.registry = .ok built.registry

variable {scope : String} {host inner inner' built built' : Expression} {c : Call}

namespace Shaped

theorem push (h : Shaped scope host inner built) (el : Element) :
    Shaped scope host (inner.push el)
      (built.push (el.relocate (.keeping scope) host.captureCount)) where
  level := by
    rw [Expression.push, Expression.push, Level.relocate_push, h.level]
  frames := h.frames
  flags := h.flags

theorem setUnicodeFor (h : Shaped scope host inner built) (el : Element) :
    Shaped scope host (inner.setUnicodeFor el)
      (built.setUnicodeFor (el.relocate (.keeping scope) host.captureCount)) where
  level := by rw [level_setUnicodeFor, level_setUnicodeFor, h.level]
  frames := by rw [frames_setUnicodeFor, frames_setUnicodeFor, h.frames]
  flags := by
    rw [flags_setUnicodeFor, flags_setUnicodeFor, Element.requiresUnicode_relocate, h.flags]
    split
    · exact (Flags.union_insert _ _ _).symm
    · rfl

end Shaped

namespace Inside

theorem start (scope : String) (host : Expression) :
    Inside scope host empty
      { host with level := {}, frames := ⟨.group, host.level⟩ :: host.frames } where
  level := rfl
  frames := rfl
  flags := (Flags.union_empty host.flags).symm
  records := .nil
  adopted := rfl

theorem captureCount_eq (h : Inside scope host inner built) :
    built.captureCount = host.captureCount + inner.captureCount :=
  (h.records.foldlM_relocate h.adopted).1

theorem groupNames_eq (h : Inside scope host inner built) :
    built.groupNames = host.groupNames ++ inner.groupNames.map (scope ++ ·) :=
  (h.records.foldlM_relocate h.adopted).2

theorem pending_eq (h : Inside scope host inner built) :
    built.level.pending = inner.level.pending := by
  rw [h.level]
  rfl

theorem splicedElements_eq (h : Inside scope host inner built) (other : Expression)
    (options : SpliceOptions) :
    built.splicedElements other (options.inScope scope) =
      Element.relocateAll (.keeping scope) host.captureCount
        (inner.splicedElements other options) := by
  rw [splicedElements, splicedElements, h.captureCount_eq, Element.relocateAll_relocateAll]
  rfl

theorem admits (h : Inside scope host inner built) {el : Element} (ha : inner.level.Admits el) :
    built.level.Admits (el.relocate (.keeping scope) host.captureCount) := by
  rw [h.level]
  exact ha.relocate scope host.captureCount

/-- A group that the expression finds is found in the host too, behind the groups of the host. -/
theorem finds (h : Inside scope host inner built) {el : Element} (hl : el.isLeaf = true)
    (hr : inner.Finds el) : built.Finds (el.relocate (.keeping scope) host.captureCount) := by
  cases el with
  | backreference i =>
    obtain ⟨hpos, hle⟩ := hr
    refine ⟨Nat.add_pos_left hpos _, ?_⟩
    rw [h.captureCount_eq]
    omega
  | namedBackreference name =>
    have hmem : scope ++ name ∈ host.groupNames ++ inner.groupNames.map (scope ++ ·) :=
      List.mem_append_right _ (List.mem_map_of_mem hr)
    rwa [← h.groupNames_eq] at hmem
  | noop | anchor _ | quantified _ _ | composite _ _ | subexpression _ => cases hl
  | _ => trivial

variable [Property.Engine]

theorem addition_eq (h : Inside scope host inner built) (hi : inner.apply c = .ok inner') :
    built.addition (c.relocate scope host.captureCount) =
      Element.relocateAll (.keeping scope) host.captureCount (inner.addition c) := by
  cases apply_eq_ok.mp hi with
  | setFlag | close | quantify => rfl
  | leaf hc =>
    rw [addition_of_leaf? hc, addition_of_leaf? (Call.leaf?_relocate scope _ hc), h.pending_eq,
      Element.relocateAll_singleton, Element.relocate_quantifiedBy]
  | anchor => rfl
  | openComposite =>
    simp only [addition, Call.relocate, h.pending_eq, Element.relocateAll_singleton,
      Element.relocate_quantifiedBy, Element.relocate_composite]
    rfl
  | splice =>
    simp only [addition, Call.relocate, h.pending_eq, h.splicedElements_eq,
      Element.relocateAll_singleton, Element.relocate_quantifiedBy]
    rfl

/-- A step that was taken in the expression can be taken in the host, if the registry of the host
accepts what the step adds, and leads to levels and flags of the same shape. -/
theorem exists_apply (h : Inside scope host inner built) (hi : inner.apply c = .ok inner')
    {r : Registry}
    (hr : (Element.heads (built.addition (c.relocate scope host.captureCount))).foldlM
      Registry.adopt built.registry = .ok r) :
    ∃ built', built.apply (c.relocate scope host.captureCount) = .ok built' ∧
      Shaped scope host inner' built' := by
  have hs : Shaped scope host inner built := h.toShaped
  cases apply_eq_ok.mp hi with
  | setFlag f =>
    refine ⟨_, rfl, hs.level, hs.frames, ?_⟩
    rw [setFlag, setFlag, Flags.union_insert, hs.flags]
  | leaf hc ha hf =>
    have hc' := Call.leaf?_relocate scope host.captureCount hc
    have hf' := h.finds (Call.isLeaf_of_leaf? hc) hf
    exact ⟨_, apply_eq_ok.mpr (.leaf hc' (h.admits ha) hf'), (hs.push _).setUnicodeFor _⟩
  | @anchor a =>
    have hr := Registry.addAnchor_eq_ok.mpr (Registry.foldlM_adopt_singleton.mp hr)
    refine ⟨_, apply_eq_ok.mpr (.anchor hr), ?_, hs.frames, hs.flags⟩
    rw [Level.relocate_place, ← hs.level]
    rfl
  | @openComposite kind =>
    have hr : (Element.heads [(Element.composite (kind.inScope scope) []).quantifiedBy
      built.level.pending]).foldlM Registry.adopt built.registry = .ok r := hr
    rw [Registry.foldlM_adopt_quantifiedBy] at hr
    have hopen := Registry.foldlM_adopt_singleton.mp hr
    refine ⟨_, apply_eq_ok.mpr (.openComposite hopen), rfl, ?_, hs.flags⟩
    rw [List.map_cons, List.cons_append, ← hs.frames, Frame.relocate, ← hs.level]
  | @close kind outer frames hf hp ha =>
    have hframes : built.frames = ⟨kind.inScope scope, outer.relocate scope host.captureCount⟩ ::
        (frames.map (Frame.relocate scope host.captureCount) ++
          ⟨.group, host.level⟩ :: host.frames) := by
      rw [h.frames, hf]
      rfl
    have hadmits : (outer.relocate scope host.captureCount).Admits
        (.composite (kind.inScope scope) built.level.elements) := by
      have hk := ha.relocate scope host.captureCount
      rwa [Element.relocate_composite] at hk
    refine ⟨_, apply_eq_ok.mpr (.close hframes (h.pending_eq.trans hp) hadmits), ?_, rfl, hs.flags⟩
    rw [Level.relocate_push, hs.level, Element.relocate_composite]
    rfl
  | quantify hq hp =>
    refine ⟨_, apply_eq_ok.mpr (.quantify hq (h.pending_eq.trans hp)), ?_, hs.frames, hs.flags⟩
    rw [hs.level]
    rfl
  | @splice other options _ hf hp =>
    rw [Call.relocate, addition, Registry.foldlM_adopt_quantifiedBy,
      Element.heads_subexpression] at hr
    have hr := (Registry.foldlM_adopt_heads _ _).symm.trans hr
    refine ⟨_, apply_eq_ok.mpr (.splice hf hp hr), ?_⟩
    rw [h.splicedElements_eq]
    refine Shaped.setUnicodeFor
      (Shaped.push ?_ (.subexpression (inner.splicedElements other options)))
      (.subexpression (inner.splicedElements other options))
    refine ⟨hs.level, hs.frames, ?_⟩
    cases hflags : options.ignoreFlags with
    | true => simpa [SpliceOptions.inScope, hflags] using hs.flags
    | false => simp [SpliceOptions.inScope, hflags, hs.flags, Flags.union_assoc]

theorem apply (h : Inside scope host inner built) (hi : inner.apply c = .ok inner')
    (hb : built.apply (c.relocate scope host.captureCount) = .ok built') :
    Inside scope host inner' built' := by
  have ha := adopt_addition hb
  obtain ⟨b, hb', hshaped⟩ := h.exists_apply hi ha
  obtain rfl : built' = b := Except.ok.inj (hb.symm.trans hb')
  refine ⟨hshaped, ?_, ?_⟩
  · rw [heads_apply hi]
    exact h.records.foldlM (adopt_addition hi)
  · rw [h.addition_eq hi, Element.heads_relocateAll] at ha
    rw [heads_apply hi, List.map_append]
    exact foldlM_append_eq_ok.mpr ⟨_, h.adopted, ha⟩

theorem run (h : Inside scope host inner built) {cs : List Call} (hi : inner.run cs = .ok inner')
    (hb : built.run (cs.map (Call.relocate scope host.captureCount)) = .ok built') :
    Inside scope host inner' built' := by
  induction cs generalizing inner built with
  | nil =>
    cases hi
    cases hb
    exact h
  | cons c cs ih =>
    obtain ⟨inner₁, hi₁, hi⟩ := run_cons.mp hi
    obtain ⟨built₁, hb₁, hb⟩ := run_cons.mp hb
    exact ih (h.apply hi₁ hb₁) hi hb

theorem exists_run (h : Inside scope host inner built) {cs : List Call}
    (hi : inner.run cs = .ok inner') {r : Registry}
    (hr : (inner'.heads.map (Element.relocate (.keeping scope) host.captureCount)).foldlM
      Registry.adopt host.registry = .ok r) :
    ∃ built', built.run (cs.map (Call.relocate scope host.captureCount)) = .ok built' := by
  induction cs generalizing inner built with
  | nil => exact ⟨built, rfl⟩
  | cons c cs ih =>
    obtain ⟨inner₁, hi₁, hi⟩ := run_cons.mp hi
    obtain ⟨ns, hns, -⟩ := heads_run hi
    -- the registry takes note of what this step adds before it sees the rest
    have hall := hr
    rw [hns, List.map_append, heads_apply hi₁, List.map_append] at hall
    obtain ⟨t, hall, -⟩ := foldlM_append_eq_ok.mp hall
    obtain ⟨t₀, ht₀, ht⟩ := foldlM_append_eq_ok.mp hall
    obtain rfl : built.registry = t₀ := Except.ok.inj (h.adopted.symm.trans ht₀)
    rw [← Element.heads_relocateAll, ← h.addition_eq hi₁] at ht
    obtain ⟨built₁, hb₁, -⟩ := h.exists_apply hi₁ ht
    obtain ⟨built', hb⟩ := ih (h.apply hi₁ hb₁) hi
    exact ⟨built', run_cons.mpr ⟨built₁, hb₁, hb⟩⟩

end Inside

/-- The given steps inside a group of the host, in place of a splice. -/
def inPlace (scope : String) (host : Expression) (calls : List Call) : List Call :=
  .openComposite .group :: (calls.map (Call.relocate scope host.captureCount) ++ [.close])

theorem run_inPlace_eq_ok [Property.Engine] {calls : List Call} :
    host.run (inPlace scope host calls) = .ok built ↔
      ∃ b : Expression,
        ({ host with level := {}, frames := ⟨.group, host.level⟩ :: host.frames } :
          Expression).run (calls.map (Call.relocate scope host.captureCount)) = .ok b ∧
        b.close = .ok built := by
  rw [inPlace, run_cons]
  constructor
  · rintro ⟨b₀, h₀, hrun⟩
    cases h₀
    obtain ⟨b, hb, hclose⟩ := run_append.mp hrun
    obtain ⟨_, hclose, hnil⟩ := run_cons.mp hclose
    cases hnil
    exact ⟨b, hb, hclose⟩
  · rintro ⟨b, hb, hclose⟩
    exact ⟨_, rfl, run_append.mpr ⟨b, hb, run_cons.mpr ⟨built, hclose, rfl⟩⟩⟩

theorem Inside.close_eq_ok (h : Inside scope host inner built) (hf : inner.frames = [])
    (hp : inner.level.pending = none) :
    built.close = .ok built' ↔ built' = { built with
      level := host.level.push (.composite .group
        (Element.relocateAll (.keeping scope) host.captureCount inner.level.elements))
      frames := host.frames } := by
  have hframes : built.frames = ⟨.group, host.level⟩ :: host.frames := by
    rw [h.frames, hf]
    rfl
  have helements : built.level.elements =
      Element.relocateAll (.keeping scope) host.captureCount inner.level.elements := by
    rw [h.level]
    rfl
  rw [← helements, Expression.close_eq_ok, hframes]
  constructor
  · rintro ⟨_, _, _, heq, -, -, rfl⟩
    cases heq
    rfl
  · rintro rfl
    exact ⟨_, _, _, rfl, h.pending_eq.trans hp, .inr rfl, rfl⟩

theorem flags_splice {other spliced : Expression} (hu : other.HasUnicode) (hf : other.frames = [])
    (h : host.splice other (.keeping scope) = .ok spliced) :
    spliced.flags = host.flags.union other.flags := by
  obtain ⟨-, -, r, -, rfl⟩ := splice_eq_ok.mp h
  have hsame : (Element.subexpression (host.splicedElements other (.keeping scope))).requiresUnicode
      = (Element.subexpression other.level.elements).requiresUnicode :=
    Element.requiresUnicode_relocate (.keeping scope) host.captureCount
      (.subexpression other.level.elements)
  rw [flags_setUnicodeFor, hsame]
  change (if _ then (host.flags.union other.flags).insert .unicode
    else host.flags.union other.flags) = host.flags.union other.flags
  split
  · rename_i hreq
    rw [← Flags.union_insert, Flags.insert_eq_self (hu.contains hf hreq)]
  · rfl

/-- Splicing an expression and taking its steps inside a group are possible in the same cases, and
lead to the same outcome but for the element that holds what was added. -/
theorem splice_iff_inPlace [Property.Engine] {calls : List Call} {other : Expression}
    (hr : empty.run calls = .ok other) (hf : other.frames = []) (hp : other.level.pending = none)
    (scope : String) (host : Expression) :
    ((∃ spliced, host.splice other (.keeping scope) = .ok spliced) ↔
        ∃ built, host.run (inPlace scope host calls) = .ok built) ∧
      ∀ spliced built, host.splice other (.keeping scope) = .ok spliced →
        host.run (inPlace scope host calls) = .ok built →
        spliced.flags = built.flags ∧ spliced.registry = built.registry ∧
          spliced.frames = built.frames ∧
          ∃ children, spliced.level = host.level.push (.subexpression children) ∧
            built.level = host.level.push (.composite .group children) := by
  have hstart := Inside.start scope host
  constructor
  · constructor
    · rintro ⟨spliced, hs⟩
      obtain ⟨-, -, r, hadopt, -⟩ := splice_eq_ok.mp hs
      rw [foldlM_splicedElements hf] at hadopt
      obtain ⟨b, hb⟩ := hstart.exists_run hr hadopt
      have hclose := ((hstart.run hr hb).close_eq_ok hf hp).mpr rfl
      exact ⟨_, run_inPlace_eq_ok.mpr ⟨b, hb, hclose⟩⟩
    · rintro ⟨built, hbuilt⟩
      obtain ⟨b, hb, -⟩ := run_inPlace_eq_ok.mp hbuilt
      have hadopt := (hstart.run hr hb).adopted
      rw [← foldlM_splicedElements hf] at hadopt
      exact ⟨_, splice_eq_ok.mpr ⟨hf, hp, _, hadopt, rfl⟩⟩
  · intro spliced built hs hbuilt
    obtain ⟨-, -, r, hadopt, hspliced⟩ := splice_eq_ok.mp hs
    obtain ⟨b, hb, hclose⟩ := run_inPlace_eq_ok.mp hbuilt
    have hinside := hstart.run hr hb
    obtain rfl := (hinside.close_eq_ok hf hp).mp hclose
    have hreg : r = b.registry := by
      rw [foldlM_splicedElements hf, hinside.adopted] at hadopt
      exact (Except.ok.inj hadopt).symm
    have hunicode : other.HasUnicode := HasUnicode.run (fun _ hn ↦ absurd hn List.not_mem_nil) hr
    refine ⟨?_, ?_, ?_, host.splicedElements other (.keeping scope), ?_, rfl⟩
    · exact (flags_splice hunicode hf hs).trans hinside.flags.symm
    · rw [hspliced, registry_setUnicodeFor]
      exact hreg
    · rw [hspliced, frames_setUnicodeFor]
      rfl
    · rw [hspliced, level_setUnicodeFor]
      rfl

theorem splice_iff_inPlace_nested :
    ∃ _ : Property.Engine, ∃ inner other host spliced built,
      empty.run [.openComposite .capture, .atom .word, .close,
        .backreference 1] = .ok inner ∧
      empty.run [.openComposite (.namedCapture "a"), .literal (.code .point "1F600"), .close,
        .splice inner {}, .namedBackreference "a"] = .ok other ∧
      other.frames = [] ∧ other.level.pending = none ∧
      empty.run [.openComposite .capture, .atom .digit, .quantify .optional] = .ok host ∧
      host.splice other (.keeping "x") = .ok spliced ∧
      host.run (inPlace "x" host [.openComposite (.namedCapture "a"),
        .literal (.code .point "1F600"), .close, .splice inner {}, .namedBackreference "a"]) =
        .ok built ∧
      spliced.flags = built.flags ∧ spliced.registry = built.registry := by
  let engine : Property.Engine := default
  let inner : Expression := {
    level := { elements := [.composite .capture [.atom .word], .backreference 1] }
    registry := { captureCount := 1 } }
  let host : Expression := {
    level := { elements := [.atom .digit], pending := some .optional }
    frames := [⟨.capture, {}⟩]
    registry := { captureCount := 1 } }
  have hother : empty.run [.openComposite (.namedCapture "a"), .literal (.code .point "1F600"),
    .close, .splice inner {}, .namedBackreference "a"] = .ok _ := rfl
  have h := (splice_iff_inPlace hother rfl rfl "x" host).2 _ _ rfl rfl
  exact ⟨engine, inner, _, host, _, _, rfl, hother, rfl, rfl, rfl, rfl, rfl, h.1, h.2.1⟩

end Expression

end PatternBuilder
