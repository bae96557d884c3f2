import TreeExtraction.Extraction.Pipeline
import TreeExtraction.Proofs.Extraction.RoundTrip
import TreeExtraction.Proofs.Filter.Filtering
import TreeExtraction.Proofs.Path.Following
import TreeExtraction.Proofs.Path.Reading
import TreeExtraction.Proofs.Transform.Depth

/-! # Extractions that descend

What a path finds in a source is less deep than the source or bare, since a path has at least one
step. The built-in transforms and filters give no item that is deeper than what they are given. So
the items of what is extracted without a default, a map or a function of the host are less deep than
the source.
-/

namespace TreeExtraction

open Value

variable {v w source : Value} {n : Nat}

/-! ## Paths -/

namespace Path

theorem steps_ne_nil {t : Text} {ss : List Step} (h : read t = .ok ss) : ss ≠ [] := by
  obtain ⟨d, -, rfl⟩ := exists_of_read h
  cases d with
  | accessor a ps => simp [Derivation.steps]
  | part p ps => simp [Derivation.steps, Part.steps]

variable [PureHost]

theorem isReached_followFrom {text : Text} {taken : Nat} {ss : List Step} (hv : v.IsReached n)
    (h : followFrom text taken v ss = .ok w) : w.IsReached n := by
  induction ss generalizing v taken with
  | nil =>
    cases h
    exact hv.orNull
  | cons s ss ih =>
    rw [followFrom] at h
    split at h
    · cases h
      exact isReached_null
    · obtain ⟨next, hnext, h⟩ := Outcome.bind_eq_ok.1 h
      exact ih (hv.answer (isFoundIn_takeStep hv.answers.here (Outcome.inContext_eq_ok.1 hnext))) h

/-- The first step leads inside the source, and no step leads out again. -/
theorem isReached_follow {ss : List Step} {text : Option Text}
    (hv : v.Throughout parts AnswersInside) (hss : ss ≠ []) (h : follow v ss text = .ok w) :
    w.IsReached v.depth := by
  obtain ⟨s, ss, rfl⟩ := List.exists_cons_of_ne_nil hss
  rw [follow, followFrom] at h
  split at h
  · cases h
    exact isReached_null
  · obtain ⟨next, hnext, h⟩ := Outcome.bind_eq_ok.1 h
    have hfound := isFoundIn_takeStep hv.here (Outcome.inContext_eq_ok.1 hnext)
    exact isReached_followFrom (hfound.isReached hv) h

theorem isReached_extract {t : Text} (hv : v.Throughout parts AnswersInside)
    (h : extract v t = .ok w) : w.IsReached v.depth := by
  obtain ⟨ss, hread, h⟩ := Outcome.bind_eq_ok.1 h
  exact isReached_follow hv (steps_ne_nil hread) h

end Path

variable [PureHost]

/-! ## Transforms and filters -/

theorem Transform.listsWithin_apply {t : Transform} (ht : t.isBuiltin = true)
    (hv : v.IsReached n) (h : t.apply v = .ok w) : w.ListsWithin n := by
  rw [apply.eq_def] at h
  split at h
  · cases h
    exact listsWithin_of_ne nofun
  · cases t with
    | custom f => cases ht
    | builtin b => exact BuiltinTransform.listsWithin_run hv (Outcome.inContext_eq_ok.1 h)

/-- What a filter leaves of an array are some of its items. -/
theorem Predicate.listsWithin_filterValue {p : Predicate} (hv : v.ListsWithin n)
    (h : p.filterValue v = .ok w) : w.ListsWithin n := by
  rw [filterValue.eq_def] at h
  split at h
  · next items frame =>
    obtain ⟨kept, hkept, rfl⟩ := Outcome.map_eq_ok.1 h
    obtain ⟨-, rfl⟩ := filterItems_eq_ok.1 hkept
    exact listsWithin_list fun c hc =>
      hv items frame rfl c (mem_reading_of_mem_present (List.mem_of_mem_filter hc))
  · cases h

theorem Spec.listsWithin_filter {p : Option Predicate} (hv : v.ListsWithin n)
    (h : (runItems .filter Predicate.filterValue p v).outcome = .ok w) : w.ListsWithin n := by
  rw [runItems.eq_def] at h
  split at h
  · split at h
    · exact Predicate.listsWithin_filterValue hv h
    · split at h
      · cases h
        exact hv
      · obtain ⟨-, -, h⟩ := Run.bind_eq_ok.1 h
        cases h
        exact hv
  · cases h
    exact hv

/-! ## Specifications -/

namespace Spec

/-- Whether a specification selects from a source: a path, or stages with neither a default nor a
map nor a function of the host. -/
def IsSelecting : Spec → Prop
  | .path _ => True
  | .structured s =>
    s.default = none ∧ s.map = none ∧ s.transform.all Transform.isBuiltin = true
  | _ => False

theorem isReached_runPath {path : Option Text} (hs : source.Throughout parts AnswersInside)
    (h : runPath source path = .ok v) : v.IsReached source.depth := by
  cases path with
  | none =>
    cases h
    exact isReached_null
  | some t => exact Path.isReached_extract hs h

theorem isReached_runFallback {fallback : Option Text}
    (hs : source.Throughout parts AnswersInside) (hv : v.IsReached source.depth)
    (h : runFallback source fallback v = .ok w) : w.IsReached source.depth := by
  rw [runFallback.eq_def] at h
  split at h
  · split at h
    · exact Path.isReached_extract hs h
    · cases h
      exact hv
  · cases h
    exact hv

theorem listsWithin_runTransform {transform : Option Transform}
    (ht : transform.all Transform.isBuiltin = true) (hv : v.IsReached n)
    (h : runTransform transform v = .ok w) : w.ListsWithin n := by
  rw [runTransform.eq_def] at h
  split at h
  · split at h
    · cases h
      exact hv.listsWithin
    · exact Transform.listsWithin_apply ht hv h
  · cases h
    exact hv.listsWithin

/-- The items of what is selected from a source are less deep than the source. -/
theorem listsWithin_run {spec : Spec} (hspec : spec.IsSelecting)
    (hs : source.Throughout parts AnswersInside) (h : (spec.run source).outcome = .ok v) :
    v.ListsWithin source.depth := by
  cases spec with
  | literal v => exact hspec.elim
  | callable f => exact hspec.elim
  | path t =>
    rw [run] at h
    split at h
    · next ss hread => exact (Path.isReached_follow hs (Path.steps_ne_nil hread) h).listsWithin
    · cases h
      exact listsWithin_of_ne nofun
  | structured s =>
    obtain ⟨hdefault, hmap, htransform⟩ := hspec
    obtain ⟨found, hpath, h⟩ := Run.bind_eq_ok.1 h
    obtain ⟨found', hfallback, h⟩ := Run.bind_eq_ok.1 h
    obtain ⟨transformed, hrun, h⟩ := Run.bind_eq_ok.1 h
    obtain ⟨filtered, hfilter, h⟩ := Run.bind_eq_ok.1 h
    obtain ⟨mapped, hmapped, h⟩ := Run.bind_eq_ok.1 h
    rw [hdefault] at hrun
    rw [hmap] at hmapped
    cases hmapped
    cases h
    have hfound : found'.IsReached source.depth :=
      isReached_runFallback hs (isReached_runPath hs hpath) hfallback
    have hlists := listsWithin_filter (listsWithin_runTransform htransform hfound hrun) hfilter
    intro items frame heq
    cases filtered <;> first | exact hlists items frame heq | cases heq

end Spec

end TreeExtraction
