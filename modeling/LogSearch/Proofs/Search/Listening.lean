/-
What a sink keeps and what its listener hears.

A sink is given batches and told of logs that were cut short, in any order and also when it is full
already. It keeps the first records of all batches together, up to its limit (`sinkFor_after_keeps`).
Whoever listens hears each slice of them when it is kept: the slices that the sink counts as passed
on are those that the listener has heard, no more and no others.

A listener is no more than what hearing a slice does to a state of its own. That it cannot change
what the sink keeps is part of the statement, and so is the sink that nobody listens to.

What a sink answers is a matter of the moment, so it is told in terms of the calls that went
before: `before ++ [call]` is a prefix of the calls. Each call at the end of a row adds one such
moment (`concat_prefix_concat_iff`), which carries the induction from the back.
-/
import LogSearch.Proofs.Search.Delivery
import LogSearch.Proofs.Search.Slices
import Mathlib.Data.List.Induction

set_option autoImplicit false

namespace LogSearch.Search

/-! ## Calls -/

/-- A call of a sink. -/
inductive Call where
  /-- It is given some records. -/
  | batch (records : List Record)
  /-- It is told that a log was cut short. -/
  | capped (source : String)
deriving DecidableEq, Repr

/-- The records that come with a call. -/
def Call.records : Call → List Record
  | batch records => records
  | capped _ => []

namespace Sink

variable {σ : Type} (sink : Sink σ)

/-- What a call does to a sink. -/
def perform (state : σ) : Call → σ
  | .batch records => (sink.accept records state).2
  | .capped source => sink.noteCapped source state

/-- The state of a sink after some calls. -/
def after (start : σ) (calls : List Call) : σ :=
  calls.foldl sink.perform start

theorem after_concat (start : σ) (calls : List Call) (call : Call) :
    sink.after start (calls ++ [call]) = sink.perform (sink.after start calls) call := by
  rw [after, after, List.foldl_append, List.foldl_cons, List.foldl_nil]

end Sink

theorem concat_prefix_concat_iff {α : Type} {before xs : List α} {x y : α} :
    before ++ [x] <+: xs ++ [y] ↔ before = xs ∧ x = y ∨ before ++ [x] <+: xs := by
  rw [List.prefix_concat_iff, List.append_singleton_inj]

/-- Cutting what was cut already, with more behind it, comes to cutting all at once. -/
theorem take_take_append {α : Type} (n : Nat) (xs ys : List α) :
    (xs.take n ++ ys).take n = (xs ++ ys).take n := by
  have hrest : n - min n xs.length = n - xs.length := by omega
  simp only [List.take_append, List.take_take, List.length_take, Nat.min_self, hrest]

/-! ## Listeners -/

/-- Whoever listens to a sink, with a state of type `τ`: what hearing a slice does to the state.
There need not be anyone. -/
def Listener (τ : Type) : Type :=
  Option (τ → List Record → τ)

/-- What a listener makes of a slice. -/
def Listener.hear {τ : Type} (listener : Listener τ) (state : τ) (slice : List Record) : τ :=
  match listener with
  | none => state
  | some react => react state slice

namespace Results

/-- The sink that keeps so many records, with a listener. Of each batch the listener hears what
there is room for, if that is anything. -/
def sinkFor {τ : Type} (listener : Listener τ) (limit : Int) : Sink (Results × τ) where
  accept batch state :=
    let (isFull, r) := accept limit batch state.1
    let slice := batch.take (limit - state.1.records.size).toNat
    (isFull, r, if slice.isEmpty then state.2 else listener.hear state.2 slice)
  noteCapped source state := (noteCapped source state.1, state.2)

section Listening

variable {τ : Type} {listener : Listener τ} {limit : Int} {start : τ}

/-- The listener changes nothing about what is kept. -/
theorem sinkFor_after_fst (listener : Listener τ) (limit : Int) (start : τ) (calls : List Call) :
    ((sinkFor listener limit).after ({}, start) calls).1 = (sink limit).after {} calls := by
  induction calls using List.reverseRecOn with
  | nil => rfl
  | append_singleton calls call ih =>
    rw [Sink.after_concat, Sink.after_concat, ← ih]
    cases call <;> rfl

/-- The sink passes on what there is room for, if that is anything. -/
theorem accept_deliveries (limit : Int) (batch : List Record) (r : Results) :
    (accept limit batch r).2.deliveries.toList
      = r.deliveries.toList ++ [batch.take (limit - r.records.size).toNat].filter (!·.isEmpty) := by
  have hadd (slice : List Record) : (r.add slice).deliveries.toList
      = r.deliveries.toList ++ [slice].filter (!·.isEmpty) := by
    cases slice with
    | nil => simp [add]
    | cons record slice => simp [add]
  rw [accept]
  split
  · exact hadd _
  · -- a batch that fits is cut nowhere
    have hall : batch.take (limit - r.records.size).toNat = batch := by
      apply List.take_of_length_le
      omega
    rw [hall]
    exact hadd batch

/-- How a sink and its listener stand after some calls. -/
structure Keeps (listener : Listener τ) (limit : Int) (start : τ) (calls : List Call)
    (now : Results × τ) : Prop where
  /-- The slices are the records, and none of them is empty. -/
  tidy : now.1.Tidy limit
  /-- The records are the first ones of all batches. -/
  records : now.1.records.toList = (calls.flatMap Call.records).take limit.toNat
  /-- The listener has heard the slices, one after the other. -/
  heard : now.2 = now.1.deliveries.toList.foldl listener.hear start
  /-- Records count as left out once a batch did not fit, or a log was cut short. -/
  capped : now.1.isCapped = true
    ↔ (∃ before batch, before ++ [.batch batch] <+: calls
        ∧ (accept limit batch ((sink limit).after {} before)).1 = true)
      ∨ ∃ source, Call.capped source ∈ calls

theorem keeps_fresh (listener : Listener τ) (limit : Int) (start : τ) :
    Keeps listener limit start [] ({}, start) where
  tidy := tidy_empty limit
  records := by simp
  heard := rfl
  capped := by simp

/-- **One call.** -/
theorem Keeps.perform {calls : List Call} {now : Results × τ}
    (hnow : now.1 = (sink limit).after {} calls) (h : Keeps listener limit start calls now)
    (call : Call) :
    Keeps listener limit start (calls ++ [call]) ((sinkFor listener limit).perform now call) := by
  cases call with
  | batch batch =>
    refine ⟨h.tidy.accept batch, ?_, ?_, ?_⟩
    · simp only [Sink.perform, sinkFor]
      rw [accept_records limit batch now.1 h.tidy.room, h.records, take_take_append,
        List.flatMap_append, List.flatMap_singleton, Call.records]
    · -- the slice is heard just if it is passed on
      simp only [Sink.perform, sinkFor]
      rw [accept_deliveries, List.foldl_append, ← h.heard]
      split <;> simp_all
    · simp only [Sink.perform, sinkFor]
      rw [accept_isCapped, Bool.or_eq_true, h.capped, hnow]
      constructor
      · rintro ((⟨before, earlier, hprefix, hrefused⟩ | ⟨source, hmem⟩) | hrefused)
        · exact .inl ⟨before, earlier, hprefix.trans (List.prefix_append _ _), hrefused⟩
        · exact .inr ⟨source, List.mem_append_left _ hmem⟩
        · exact .inl ⟨calls, batch, List.prefix_rfl, hrefused⟩
      · rintro (⟨before, other, hprefix, hrefused⟩ | ⟨source, hmem⟩)
        · rcases concat_prefix_concat_iff.mp hprefix with ⟨rfl, hlast⟩ | hprefix
          · cases hlast
            exact .inr hrefused
          · exact .inl (.inl ⟨before, other, hprefix, hrefused⟩)
        · rcases List.mem_append.mp hmem with hmem | hmem
          · exact .inl (.inr ⟨source, hmem⟩)
          · simp at hmem
  | capped source =>
    refine ⟨⟨h.tidy.flatten, h.tidy.whole, h.tidy.room⟩, ?_, h.heard, ?_⟩
    · simp only [Sink.perform, sinkFor, noteCapped]
      rw [h.records, List.flatMap_append, List.flatMap_singleton, Call.records, List.append_nil]
    · simp only [Sink.perform, sinkFor, noteCapped, true_iff]
      exact .inr ⟨source, List.mem_append_right _ (List.mem_singleton_self _)⟩

theorem keeps_after (listener : Listener τ) (limit : Int) (start : τ) (calls : List Call) :
    Keeps listener limit start calls ((sinkFor listener limit).after ({}, start) calls) := by
  induction calls using List.reverseRecOn with
  | nil => exact keeps_fresh listener limit start
  | append_singleton calls call ih =>
    rw [Sink.after_concat]
    exact ih.perform (sinkFor_after_fst listener limit start calls) call

/-- **What a sink keeps of any calls, and what its listener hears.** The sink keeps the first
records of all batches together, up to its limit, whoever listens. The listener has heard the
slices that were passed on, one after the other; none of them is empty, and together they are the
records. A batch is answered with a call to stop exactly if it exceeds the limit together with the
records that the sink held before. And records count as left out exactly if some batch was answered
in this way, or a log was said to be cut short. -/
theorem sinkFor_after_keeps {τ : Type} (listener : Listener τ) (limit : Int) (start : τ)
    (calls : List Call) :
    let sink := sinkFor listener limit
    let now := sink.after ({}, start) calls
    let slices := now.1.deliveries.toList
    now.1 = (Results.sink limit).after {} calls
      ∧ now.1.records.toList = (calls.flatMap Call.records).take limit.toNat
      ∧ now.2 = slices.foldl listener.hear start
      ∧ (∀ slice ∈ slices, slice ≠ [])
      ∧ slices.flatten = now.1.records.toList
      ∧ (∀ before batch, before ++ [.batch batch] <+: calls →
        let held := (sink.after ({}, start) before).1.records.size
        ((sink.accept batch (sink.after ({}, start) before)).1 = true
          ↔ limit < held + batch.length))
      ∧ (now.1.isCapped = true
        ↔ (∃ before batch, before ++ [.batch batch] <+: calls
            ∧ (sink.accept batch (sink.after ({}, start) before)).1 = true)
          ∨ ∃ source, .capped source ∈ calls) := by
  intro sink now slices
  have h := keeps_after listener limit start calls
  refine ⟨sinkFor_after_fst listener limit start calls, h.records, h.heard, h.tidy.whole,
    h.tidy.flatten, ?_, ?_⟩
  · intro before batch _ held
    exact (Bool.eq_iff_iff.mp (accept_fst limit batch _)).trans decide_eq_true_iff
  · -- what the sink answers does not depend on the listener
    have hanswer (before : List Call) (batch : List Record) :
        (sink.accept batch (sink.after ({}, start) before)).1
          = (accept limit batch ((Results.sink limit).after {} before)).1 := by
      rw [← sinkFor_after_fst listener limit start before]
      rfl
    simp only [hanswer]
    exact h.capped

end Listening

end Results

end LogSearch.Search
