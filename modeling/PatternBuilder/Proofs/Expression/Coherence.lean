import PatternBuilder.Proofs.Expression.Records

namespace PatternBuilder

namespace Element

def anchors (ns : List Element) : List Anchor := ns.filterMap anchor?

theorem anchors_append (ns ms : List Element) : anchors (ns ++ ms) = anchors ns ++ anchors ms :=
  List.filterMap_append

/-- Every reference finds its group before it, no name is used twice, and each anchor is there at
most once, the start before the end. -/
structure Coherent (ns : List Element) : Prop where
  resolves : AllResolve [] ns
  names_nodup : (groups ns).reduceOption.Nodup
  anchors_sublist : (anchors ns).Sublist [.start, .finish]

theorem Coherent.of_append {ns ms : List Element} (h : Coherent (ns ++ ms)) : Coherent ns where
  resolves := (allResolve_append.mp h.resolves).1
  names_nodup := by
    have hn := h.names_nodup
    rw [groups_append, List.reduceOption_append] at hn
    exact (List.nodup_append.mp hn).1
  anchors_sublist := by
    have ha := h.anchors_sublist
    rw [anchors_append] at ha
    exact (List.sublist_append_left _ _).trans ha

theorem not_mem_of_nodup_append {α : Type} {xs : List α} {x : α} (h : (xs ++ [x]).Nodup) :
    x ∉ xs :=
  fun hx ↦ (List.nodup_append.mp h).2.2 x hx x List.mem_cons_self rfl

theorem finish_not_mem_of_append_start {as : List Anchor}
    (h : (as ++ [Anchor.start]).Sublist [.start, .finish]) : Anchor.finish ∉ as := by
  intro hf
  have hs : ([.finish] ++ [.start] : List Anchor).Sublist [.start, .finish] :=
    ((List.singleton_sublist.mpr hf).append_right [Anchor.start]).trans h
  exact absurd hs (by decide)

end Element

open Element

namespace Registry

def ofNodes (ns : List Element) : Registry where
  names := (groups ns).reduceOption
  captureCount := (groups ns).length
  hasStart := (anchors ns).contains .start
  hasEnd := (anchors ns).contains .finish

variable {ns ms : List Element} {n : Element}

theorem ofNodes_append_singleton (ns : List Element) (n : Element) :
    ofNodes (ns ++ [n]) = {
      names := (ofNodes ns).names ++ (groups [n]).reduceOption
      captureCount := (ofNodes ns).captureCount + (groups [n]).length
      hasStart := (ofNodes ns).hasStart || (anchors [n]).contains .start
      hasEnd := (ofNodes ns).hasEnd || (anchors [n]).contains .finish } := by
  simp only [ofNodes, groups_append, anchors_append, List.reduceOption_append, List.length_append,
    List.contains_eq_mem, List.mem_append, Bool.decide_or]

theorem ofNodes_append_of_silent (hg : n.group? = none) (ha : n.anchor? = none) :
    ofNodes (ns ++ [n]) = ofNodes ns := by
  simp [ofNodes_append_singleton, groups, anchors, hg, ha, List.reduceOption]

theorem adoptAnchor_ofNodes {a : Anchor} (h : Coherent (ns ++ [.anchor a])) :
    (ofNodes ns).adoptAnchor a = .ok (ofNodes (ns ++ [.anchor a])) := by
  have hsub := h.anchors_sublist
  rw [anchors_append] at hsub
  have hnew : a ∉ anchors ns := not_mem_of_nodup_append (hsub.nodup (by decide))
  rw [ofNodes_append_singleton]
  cases a with
  | start =>
    have hs : (ofNodes ns).hasStart = false := by simpa [ofNodes] using hnew
    have he : (ofNodes ns).hasEnd = false := by
      simpa [ofNodes] using finish_not_mem_of_append_start hsub
    simp [adoptAnchor, hs, he, groups, group?, anchors, anchor?, List.reduceOption]
  | finish =>
    have he : (ofNodes ns).hasEnd = false := by simpa [ofNodes] using hnew
    simp [adoptAnchor, he, groups, group?, anchors, anchor?, List.reduceOption]

theorem addName_ofNodes {name : String} {es : List Element}
    (h : Coherent (ns ++ [.composite (.namedCapture name) es])) (hv : isGroupName name = true) :
    ((ofNodes ns).addName name).map addCapture =
      .ok (ofNodes (ns ++ [.composite (.namedCapture name) es])) := by
  have hn := h.names_nodup
  rw [groups_append, List.reduceOption_append] at hn
  rw [addName_eq_ok.mpr ⟨hv, not_mem_of_nodup_append hn, rfl⟩, ofNodes_append_singleton]
  simp [Except.map, addCapture, groups, group?, anchors, anchor?, List.reduceOption]

theorem adopt_ofNodes (h : Coherent (ns ++ [n]))
    (hv : ∀ name, n.group? = some (some name) → isGroupName name = true) :
    (ofNodes ns).adopt n = .ok (ofNodes (ns ++ [n])) := by
  cases n with
  | anchor a => exact adoptAnchor_ofNodes h
  | composite kind es =>
    cases kind with
    | capture =>
      rw [ofNodes_append_singleton]
      simp [adopt, openComposite, addCapture, groups, group?, anchors, anchor?, List.reduceOption]
    | namedCapture name => exact addName_ofNodes h (hv name rfl)
    | _ => exact congrArg Except.ok (ofNodes_append_of_silent rfl rfl).symm
  | _ => exact congrArg Except.ok (ofNodes_append_of_silent rfl rfl).symm

end Registry

end PatternBuilder
