import PatternBuilder.Expression.Compile
import PatternBuilder.Proofs.Expression.Steps

namespace PatternBuilder

namespace Expression

def withoutFlags (e : Expression) : Expression := { e with flags := {} }

end Expression

namespace Call

def isSetter : Call → Bool
  | setFlag _ => true
  | _ => false

def withoutFlags : Call → Call
  | splice other options => splice other.withoutFlags options
  | c => c

theorem isSetter_withoutFlags (c : Call) : c.withoutFlags.isSetter = c.isSetter := by
  cases c <;> rfl

end Call

namespace Expression

variable {e e' : Expression} {c c' : Call} {cs ds : List Call}

theorem withoutFlags_setUnicodeFor (e : Expression) (el : Element) :
    (e.setUnicodeFor el).withoutFlags = e.withoutFlags := by
  unfold setUnicodeFor
  split <;> rfl

theorem map_congr_withoutFlags {α : Type} {x : Except BuildError α} {f g : α → Expression}
    (h : ∀ a, (f a).withoutFlags = (g a).withoutFlags) :
    (x.map f).map withoutFlags = (x.map g).map withoutFlags := by
  cases x with
  | error error => rfl
  | ok a => exact congrArg Except.ok (h a)

theorem bind_congr_withoutFlags {α : Type} {x : Except BuildError α}
    {f g : α → Except BuildError Expression}
    (h : ∀ a, (f a).map withoutFlags = (g a).map withoutFlags) :
    (x >>= f).map withoutFlags = (x >>= g).map withoutFlags := by
  cases x with
  | error error => rfl
  | ok a => exact h a

theorem apply_withoutFlags [Property.Engine] (e : Expression) (c : Call) :
    (e.withoutFlags.apply c.withoutFlags).map withoutFlags = (e.apply c).map withoutFlags := by
  cases c with
  | setFlag f => rfl
  | atom a => rfl
  | boundary b => exact map_congr_withoutFlags fun _ ↦ rfl
  | anchor a => exact map_congr_withoutFlags fun _ ↦ rfl
  | literal l =>
    refine map_congr_withoutFlags fun el ↦ ?_
    rw [withoutFlags_setUnicodeFor, withoutFlags_setUnicodeFor]
    rfl
  | backreference i =>
    have hcount : e.withoutFlags.captureCount = e.captureCount := rfl
    change (e.withoutFlags.backreference i).map withoutFlags = (e.backreference i).map withoutFlags
    rw [backreference, backreference, hcount]
    split <;> rfl
  | namedBackreference name =>
    have hnames : e.withoutFlags.groupNames = e.groupNames := rfl
    change (e.withoutFlags.namedBackreference name).map withoutFlags =
      (e.namedBackreference name).map withoutFlags
    rw [namedBackreference, namedBackreference, hnames]
    split <;> rfl
  | openComposite kind => exact map_congr_withoutFlags fun _ ↦ rfl
  | close =>
    have hframes : e.withoutFlags.frames = e.frames := rfl
    have hlevel : e.withoutFlags.level = e.level := rfl
    change e.withoutFlags.close.map withoutFlags = e.close.map withoutFlags
    rw [close, close, hframes, hlevel]
    split
    · rfl
    · split
      · rfl
      · exact map_congr_withoutFlags fun _ ↦ rfl
  | quantify q =>
    change (e.withoutFlags.quantify q).map withoutFlags = (e.quantify q).map withoutFlags
    rw [quantify, quantify]
    split
    · rfl
    · exact map_congr_withoutFlags fun _ ↦ rfl
  | splice other options =>
    refine bind_congr_withoutFlags fun elements ↦ bind_congr_withoutFlags fun registry ↦ ?_
    refine congrArg Except.ok ?_
    rw [withoutFlags_setUnicodeFor, withoutFlags_setUnicodeFor]
    rfl

/-- Where expressions differ only in flags, a step is refused for the same reason, or leads to
expressions that differ only in flags. -/
theorem apply_alike [Property.Engine] (he : e.withoutFlags = e'.withoutFlags)
    (hc : c.withoutFlags = c'.withoutFlags) :
    (∃ error, e.apply c = .error error ∧ e'.apply c' = .error error) ∨
      ∃ e₁ e₁', e.apply c = .ok e₁ ∧ e'.apply c' = .ok e₁' ∧
        e₁.withoutFlags = e₁'.withoutFlags := by
  have h : (e.apply c).map withoutFlags = (e'.apply c').map withoutFlags := by
    rw [← apply_withoutFlags e, ← apply_withoutFlags e', he, hc]
  cases hx : e.apply c with
  | error error =>
    cases hy : e'.apply c' with
    | error error' =>
      rw [hx, hy] at h
      cases h
      exact .inl ⟨error, rfl, rfl⟩
    | ok e₁' =>
      rw [hx, hy] at h
      cases h
  | ok e₁ =>
    cases hy : e'.apply c' with
    | error error' =>
      rw [hx, hy] at h
      cases h
    | ok e₁' =>
      rw [hx, hy] at h
      exact .inr ⟨e₁, e₁', rfl, rfl, Except.ok.inj h⟩

theorem compile_withoutFlags (e : Expression) :
    e.withoutFlags.compile.map Pattern.source = e.compile.map Pattern.source := by
  have hfinished : e.withoutFlags.finishedElements .unclosed = e.finishedElements .unclosed := rfl
  rw [compile, compile, hfinished]
  cases e.finishedElements .unclosed <;> rfl

section

variable [Property.Engine]

/-- What comes of the steps other than flags, where one that is refused leaves everything as it
is. -/
def outcomes (e : Expression) : List Call → List (Except BuildError Unit)
  | [] => []
  | c :: calls =>
    (if c.isSetter then [] else [(e.apply c).map fun _ ↦ ()]) ++ outcomes (e.attempt [c]) calls

/-- Runs that differ only in the flags they set, also in the runs behind what they splice. -/
inductive FlagsApart : List Call → List Call → Prop
  | nil : FlagsApart [] []
  | left {cs ds : List Call} (f : Flag) (h : FlagsApart cs ds) : FlagsApart (.setFlag f :: cs) ds
  | right {cs ds : List Call} (f : Flag) (h : FlagsApart cs ds) : FlagsApart cs (.setFlag f :: ds)
  | step {cs ds : List Call} (c : Call) (h : FlagsApart cs ds) : FlagsApart (c :: cs) (c :: ds)
  | splice {as bs cs ds : List Call} (options : SpliceOptions) (hspliced : FlagsApart as bs)
      (h : FlagsApart cs ds) :
      FlagsApart (.splice (empty.attempt as) options :: cs)
        (.splice (empty.attempt bs) options :: ds)

theorem attempt_congr (he : e.withoutFlags = e'.withoutFlags)
    (hc : c.withoutFlags = c'.withoutFlags) :
    (e.attempt [c]).withoutFlags = (e'.attempt [c']).withoutFlags := by
  change ((e.apply c).toOption.getD e).withoutFlags = ((e'.apply c').toOption.getD e').withoutFlags
  obtain ⟨error, hx, hy⟩ | ⟨e₁, e₁', hx, hy, h⟩ := apply_alike he hc
  · rw [hx, hy]
    exact he
  · rw [hx, hy]
    exact h

theorem outcomes_cons_congr (he : e.withoutFlags = e'.withoutFlags)
    (hc : c.withoutFlags = c'.withoutFlags)
    (h : (e.attempt [c]).outcomes cs = (e'.attempt [c']).outcomes ds) :
    e.outcomes (c :: cs) = e'.outcomes (c' :: ds) := by
  have hsetter : c.isSetter = c'.isSetter := by
    rw [← c.isSetter_withoutFlags, hc, c'.isSetter_withoutFlags]
  rw [outcomes, outcomes, h, hsetter]
  obtain ⟨error, hx, hy⟩ | ⟨e₁, e₁', hx, hy, -⟩ := apply_alike he hc
  · rw [hx, hy]
  · rw [hx, hy]
    rfl

theorem run_cons_congr (he : e.withoutFlags = e'.withoutFlags)
    (hc : c.withoutFlags = c'.withoutFlags)
    (h : ∀ {e₁ e₁' : Expression}, e₁.withoutFlags = e₁'.withoutFlags →
      (e₁.run cs).map withoutFlags = (e₁'.run ds).map withoutFlags) :
    (e.run (c :: cs)).map withoutFlags = (e'.run (c' :: ds)).map withoutFlags := by
  change (e.apply c >>= fun e₁ ↦ e₁.run cs).map withoutFlags =
    (e'.apply c' >>= fun e₁ ↦ e₁.run ds).map withoutFlags
  obtain ⟨error, hx, hy⟩ | ⟨e₁, e₁', hx, hy, halike⟩ := apply_alike he hc
  · rw [hx, hy]
    rfl
  · rw [hx, hy]
    exact h halike

/-- By induction over how the runs differ: they are in the same states but for the flags. -/
theorem FlagsApart.agree (h : FlagsApart cs ds) (he : e.withoutFlags = e'.withoutFlags) :
    e.outcomes cs = e'.outcomes ds ∧
      (e.attempt cs).withoutFlags = (e'.attempt ds).withoutFlags ∧
      (e.run cs).map withoutFlags = (e'.run ds).map withoutFlags := by
  induction h generalizing e e' with
  | nil => exact ⟨rfl, he, congrArg Except.ok he⟩
  | left f _ ih =>
    have hset : (e.setFlag f).withoutFlags = e'.withoutFlags := he
    exact ih hset
  | right f _ ih =>
    have hset : e.withoutFlags = (e'.setFlag f).withoutFlags := he
    exact ih hset
  | step c _ ih =>
    obtain ⟨houtcomes, hend, -⟩ := ih (attempt_congr he (rfl : c.withoutFlags = c.withoutFlags))
    exact ⟨outcomes_cons_congr he rfl houtcomes, hend, run_cons_congr he rfl fun h ↦ (ih h).2.2⟩
  | @splice as bs cs ds options _ _ ihspliced ih =>
    -- the spliced expressions come from runs that are apart in the same way
    have hc : (Call.splice (empty.attempt as) options).withoutFlags =
        (Call.splice (empty.attempt bs) options).withoutFlags :=
      congrArg (Call.splice · options) (ihspliced rfl).2.1
    obtain ⟨houtcomes, hend, -⟩ := ih (attempt_congr he hc)
    exact ⟨outcomes_cons_congr he hc houtcomes, hend, run_cons_congr he hc fun h ↦ (ih h).2.2⟩

/-- Setting flags in other places changes no outcome of the other steps, nothing that is built but
the flags, and neither the source nor the reason why there is none. The same goes for runs that end
with the first step that is refused. -/
theorem flags_decide_flags_only (h : FlagsApart cs ds) :
    empty.outcomes cs = empty.outcomes ds ∧
      (empty.attempt cs).level = (empty.attempt ds).level ∧
      (empty.attempt cs).frames = (empty.attempt ds).frames ∧
      (empty.attempt cs).registry = (empty.attempt ds).registry ∧
      (empty.attempt cs).compile.map Pattern.source =
        (empty.attempt ds).compile.map Pattern.source ∧
      (empty.run cs).map withoutFlags = (empty.run ds).map withoutFlags := by
  obtain ⟨houtcomes, hend, hrun⟩ := h.agree rfl
  have hlevel := congrArg level hend
  have hframes := congrArg frames hend
  have hregistry := congrArg registry hend
  refine ⟨houtcomes, hlevel, hframes, hregistry, ?_, hrun⟩
  rw [← compile_withoutFlags, hend, compile_withoutFlags]

end

theorem flags_decide_flags_only_around_refusal :
    ∃ _ : Property.Engine, ∃ cs ds p q,
      FlagsApart cs ds ∧
      cs = [.setFlag .global, .openComposite .capture, .splice (empty.attempt
        [.literal (.code .point "1F600"), .setFlag .sticky]) { ignoreFlags := false },
        .quantify (.exactly 0), .close] ∧
      ds = [.openComposite .capture, .splice (empty.attempt
        [.setFlag .multiline, .literal (.code .point "1F600")]) { ignoreFlags := false },
        .quantify (.exactly 0), .setFlag .dotAll, .close] ∧
      empty.outcomes ds = [.ok (), .ok (), .error (.invalidCount 0), .ok ()] ∧
      (empty.attempt cs).compile = .ok p ∧ (empty.attempt ds).compile = .ok q ∧
      p.flags ≠ q.flags ∧ p.source = q.source := by
  let engine : Property.Engine := default
  have hspliced : FlagsApart [.literal (.code .point "1F600"), .setFlag .sticky]
      [.setFlag .multiline, .literal (.code .point "1F600")] :=
    .right .multiline (.step _ (.left .sticky .nil))
  have h : FlagsApart _ _ := .left .global (.step (.openComposite .capture)
    (.splice { ignoreFlags := false } hspliced (.step (.quantify (.exactly 0))
      (.right .dotAll (.step .close .nil)))))
  obtain ⟨houtcomes, -, -, -, hsource, -⟩ := flags_decide_flags_only h
  refine ⟨engine, _, _, _, _, h, rfl, rfl, ?_, rfl, rfl, by decide, Except.ok.inj hsource⟩
  rw [← houtcomes]
  rfl

end Expression

end PatternBuilder
