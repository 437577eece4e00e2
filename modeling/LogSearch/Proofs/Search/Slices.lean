/-
The slices that a search passes on.

Whoever follows a search sees the slices of records that its sink passes on. Whatever the workers
hand over and in whatever order, three things hold of them at any moment: together they are the
records that the sink holds, none of them is empty, and the records are within the limit
(`Results.Tidy`). And slices are never taken back: what the sink has passed on later begins with
what it has passed on before (`Results.Extends`).

Both are shown for one batch, then for a step of a worker and for a step of a search, which is
where the followers of a search need them.
-/
import LogSearch.Proofs.Search.Schedule

set_option autoImplicit false

namespace LogSearch.Search

/-! ## The sink -/

namespace Results

/-- How a sink with some limit stands towards its followers. -/
structure Tidy (limit : Int) (r : Results) : Prop where
  /-- The slices are the records. -/
  flatten : r.deliveries.toList.flatten = r.records.toList
  /-- No slice is empty. -/
  whole : ∀ slice ∈ r.deliveries.toList, slice ≠ []
  /-- The records are within the limit. -/
  room : r.records.size ≤ limit.toNat

/-- Whether `later` has passed on what `r` has, and possibly more. -/
def Extends (later r : Results) : Prop :=
  r.deliveries.toList <+: later.deliveries.toList

variable {limit : Int} {r : Results}

theorem tidy_empty (limit : Int) : Tidy limit {} :=
  ⟨rfl, nofun, Nat.zero_le _⟩

theorem Extends.refl (r : Results) : r.Extends r :=
  List.prefix_rfl

theorem Tidy.add (h : r.Tidy limit) {slice : List Record}
    (hroom : r.records.size + slice.length ≤ limit.toNat) : (r.add slice).Tidy limit := by
  have hsize : (r.add slice).records.size ≤ limit.toNat := by
    rwa [Results.add, ← Array.length_toList, Array.toList_appendList, List.length_append,
      Array.length_toList]
  rw [Results.add] at hsize ⊢
  cases slice with
  | nil =>
    refine ⟨?_, h.whole, hsize⟩
    simpa only [List.isEmpty_nil, if_true, Array.appendList_nil] using h.flatten
  | cons record slice =>
    refine ⟨?_, ?_, hsize⟩
    · simp only [List.isEmpty_cons, Bool.false_eq_true, if_false, Array.toList_push,
        List.flatten_append, List.flatten_singleton, h.flatten, Array.toList_appendList]
    · intro other hother
      simp only [List.isEmpty_cons, Bool.false_eq_true, if_false, Array.toList_push,
        List.mem_append, List.mem_singleton] at hother
      rcases hother with hbefore | rfl
      · exact h.whole other hbefore
      · exact List.cons_ne_nil _ _

theorem extends_add (r : Results) (slice : List Record) : (r.add slice).Extends r := by
  rw [Extends, add]
  dsimp only
  split
  · exact List.prefix_rfl
  · rw [Array.toList_push]
    exact List.prefix_append _ _

/-- **One batch.** A sink within its limit takes what fits. -/
theorem Tidy.accept (h : r.Tidy limit) (batch : List Record) :
    (Results.accept limit batch r).2.Tidy limit := by
  have hroom := h.room
  rw [Results.accept]
  split
  · have hcut : r.records.size + (batch.take (limit - r.records.size).toNat).length
        ≤ limit.toNat := by
      rw [List.length_take]
      omega
    exact ⟨(h.add hcut).flatten, (h.add hcut).whole, (h.add hcut).room⟩
  · exact h.add (by omega)

theorem extends_accept (limit : Int) (batch : List Record) (r : Results) :
    (accept limit batch r).2.Extends r := by
  rw [accept]
  split
  · exact extends_add r _
  · exact extends_add r batch

end Results

/-! ## Workers -/

section Steps

variable {limit : Int} {job : Job} {p : Progress Results}

theorem Progress.tidy_deliver (h : p.sink.Tidy limit) (records : Array Record) :
    (p.deliver (Results.sink limit) records).sink.Tidy limit
      ∧ (p.deliver (Results.sink limit) records).sink.Extends p.sink := by
  rw [deliver]
  split
  · exact ⟨h, .refl _⟩
  · exact ⟨h.accept _, Results.extends_accept _ _ _⟩

theorem Progress.tidy_handOver (h : p.sink.Tidy limit) (source : String) (haul : Haul) :
    (p.handOver (Results.sink limit) source haul).sink.Tidy limit
      ∧ (p.handOver (Results.sink limit) source haul).sink.Extends p.sink := by
  obtain ⟨htidy, hextends⟩ := tidy_deliver h haul.records
  rw [handOver]
  dsimp only
  split
  · exact ⟨⟨htidy.flatten, htidy.whole, htidy.room⟩, hextends⟩
  · exact ⟨htidy, hextends⟩

/-- **One step of a worker.** It leaves the sink as it is, or it hands over. -/
theorem Worker.tidy_step (h : p.sink.Tidy limit) (w : Worker) :
    (w.step job (Results.sink limit) p).2.sink.Tidy limit
      ∧ (w.step job (Results.sink limit) p).2.sink.Extends p.sink := by
  have hstays : p.sink.Tidy limit ∧ p.sink.Extends p.sink := ⟨h, .refl _⟩
  obtain ⟨next, q, hstep, hmakes⟩ := w.step_cases job (Results.sink limit) p
  rw [hstep]
  cases hmakes with
  | handsOver => exact Progress.tidy_handOver h _ _
  | _ => exact hstays

/-- **One step of a search**, whichever worker makes it. -/
theorem Run.tidy_stepAt {run : Run Results} (h : run.progress.sink.Tidy limit) (i : Nat) :
    (run.stepAt job (Results.sink limit) i).progress.sink.Tidy limit
      ∧ (run.stepAt job (Results.sink limit) i).progress.sink.Extends run.progress.sink := by
  cases hw : run.workers[i]? with
  | none =>
    rw [stepAt_none hw]
    exact ⟨h, .refl _⟩
  | some w =>
    rw [stepAt_some hw]
    exact w.tidy_step h

end Steps

end LogSearch.Search
