import PatternBuilder.Proofs.Element.UnicodeNodes
import PatternBuilder.Proofs.Expression.Compile
import PatternBuilder.Proofs.Expression.Unicode

namespace PatternBuilder

namespace Expression

variable {e e' : Expression} {calls : List Call}

theorem contains_run [Property.Engine] (h : e.run calls = .ok e') (f : Flag) :
    ∃ ns, e'.heads = e.heads ++ ns ∧
      e'.flags.contains f = (e.flags.contains f || calls.any (Call.requests f) ||
        (f == .unicode && ns.any Element.isUnicodeOnly)) := by
  induction calls generalizing e with
  | nil =>
    cases h
    refine ⟨[], (List.append_nil _).symm, ?_⟩
    simp
  | cons c calls ih =>
    obtain ⟨e₁, h₁, hrest⟩ := run_cons.mp h
    obtain ⟨ns, hns, hflags⟩ := ih hrest
    refine ⟨Element.heads (e.addition c) ++ ns, ?_, ?_⟩
    · rw [hns, heads_apply h₁, List.append_assoc]
    · rw [hflags, contains_apply h₁, List.any_cons, List.any_append, Bool.and_or_distrib_left]
      ac_rfl

theorem any_isUnicodeOnly_heads (e : Expression) :
    e.heads.any Element.isUnicodeOnly = e.allNodes.any Element.isUnicodeOnly := by
  -- only open composites and waiting quantifiers are heads but no nodes
  have hfilter := e.filter_heads (p := Element.isUnicodeOnly) (fun _ ↦ rfl) (fun _ ↦ rfl)
  have hany (ns : List Element) :
      ns.any Element.isUnicodeOnly = (ns.filter Element.isUnicodeOnly).any fun _ ↦ true := by
    rw [List.any_filter]
    simp
  rw [hany, hfilter, ← hany, List.any_map]
  exact congrArg (List.any e.allNodes) (funext Element.isUnicodeOnly_head)

theorem any_requests_iff (f : Flag) :
    calls.any (Call.requests f) = true ↔ .setFlag f ∈ calls ∨
      ∃ other options, .splice other options ∈ calls ∧ options.ignoreFlags = false ∧
        other.flags.contains f = true := by
  rw [List.any_eq_true]
  constructor
  · intro h
    obtain ⟨c, hc, hr⟩ := h
    cases c with
    | setFlag g =>
      obtain rfl : g = f := beq_iff_eq.mp hr
      exact .inl hc
    | splice other options =>
      obtain ⟨hi, hf⟩ := Bool.and_eq_true_iff.mp hr
      exact .inr ⟨other, options, hc, (Bool.not_eq_true' _).mp hi, hf⟩
    | _ => cases hr
  · intro h
    rcases h with hc | ⟨other, options, hc, hi, hf⟩
    · exact ⟨_, hc, beq_self_eq_true f⟩
    · refine ⟨_, hc, ?_⟩
      rw [Call.requests, hi, hf]
      rfl

/-- A flag is on just if a step turned it on, a step brought it with what it spliced, or it is
unicode mode and a node of some level needs that. A pattern carries these flags, and if its source
is read as something that needs unicode mode, this is among them. -/
theorem flags_requested [Property.Engine]
    (hc : ∀ c ∈ calls, ∀ other, c.spliced? = some other → other.Reachable)
    (h : empty.run calls = .ok e) :
    (∀ f, e.flags.contains f = true ↔ .setFlag f ∈ calls ∨
        (∃ other options, .splice other options ∈ calls ∧ options.ignoreFlags = false ∧
          other.flags.contains f = true) ∨
        (f = .unicode ∧ ∃ n ∈ e.allNodes, n.isUnicodeOnly = true)) ∧
      ∀ p, e.compile = .ok p → p.flags = e.flags ∧
        ∃ d, Disjunction.read p.source.toList = .ok d ∧
          (d.needsUnicode = true → p.flags.contains .unicode = true) := by
  have hflags (f : Flag) : e.flags.contains f =
      (calls.any (Call.requests f) || (f == .unicode && e.allNodes.any Element.isUnicodeOnly)) := by
    obtain ⟨ns, hns, hrun⟩ := contains_run h f
    obtain rfl : e.heads = ns := hns
    rw [hrun, any_isUnicodeOnly_heads]
    exact congrArg (· || _) (congrArg (· || _) (Flags.contains_empty f))
  refine ⟨?_, ?_⟩
  · intro f
    rw [hflags, Bool.or_eq_true, any_requests_iff, or_assoc, Bool.and_eq_true, beq_iff_eq,
      List.any_eq_true]
  · intro p hp
    have hread := (read_source (Reachable.empty.run calls hc h) hp).2
    obtain ⟨hf, -, rfl⟩ := compile_eq_ok.mp hp
    refine ⟨rfl, _, hread, ?_⟩
    intro hneeds
    rw [Element.needsUnicode_toDisjunction, ← elements_of_frames_nil hf] at hneeds
    rw [hflags, Bool.or_eq_true, Bool.and_eq_true]
    exact .inr ⟨rfl, hneeds⟩

theorem flags_requested_of_nested_splices :
    ∃ _ : Property.Engine, ∃ inner middle e p,
      empty.run [.setFlag .global, .literal (.code .point "1F600")] = .ok inner ∧
      empty.run [.setFlag .sticky, .openComposite .anyOf, .splice inner {}, .close] = .ok middle ∧
      empty.run [.setFlag .multiline, .splice middle { ignoreFlags := false }] = .ok e ∧
      e.compile = .ok p ∧ p.source = "(?:\\u\x7b1F600\x7d)" ∧ p.flags = e.flags ∧
      e.flags = { multiline := true, unicode := true, sticky := true } ∧
      e.flags.contains .sticky = true := by
  let engine : Property.Engine := default
  let inner : Expression := {
    level := { elements := [.code .point "1F600"] }
    flags := { global := true, unicode := true } }
  let middle : Expression := {
    level := { elements := [.composite .anyOf [.subexpression [.code .point "1F600"]]] }
    flags := { unicode := true, sticky := true } }
  have hi : inner.Reachable := Reachable.empty.run [.setFlag .global,
    .literal (.code .point "1F600")] (by simp [Call.spliced?]) rfl
  have hm : middle.Reachable := Reachable.empty.run [.setFlag .sticky, .openComposite .anyOf,
    .splice inner {}, .close] (by simp [Call.spliced?, hi]) rfl
  have hc : ∀ c ∈ [.setFlag .multiline, .splice middle { ignoreFlags := false }], ∀ other,
      Call.spliced? c = some other → other.Reachable := by
    simp [Call.spliced?, hm]
  have h := flags_requested hc rfl
  refine ⟨engine, inner, middle, _, _, rfl, rfl, rfl, rfl, rfl, (h.2 _ rfl).1, rfl, ?_⟩
  refine (h.1 .sticky).mpr (.inr (.inl ⟨middle, { ignoreFlags := false }, ?_, rfl, rfl⟩))
  exact List.mem_cons_of_mem _ List.mem_cons_self

end Expression

end PatternBuilder
