/-
Handing over to the sink that keeps so many records.

The sink is described here by the list of its records, and its limit by the
natural number `limit.toNat`, which is what a limit comes to for a list: a
negative one admits no more than zero does. As long as the records are within the
limit (`room` below), handing over a haul appends it and cuts at the limit.
Whether anything was cut off is told by the lengths alone, and the same test says
when the signal goes up, when the sink is full and, together with the cut at the
log's own cap, when the results are incomplete.

An empty haul is never passed to the sink. It could not exceed the limit either,
so the test covers it; this is where the room is needed, since an empty batch
passed to a sink with a negative limit would be refused.
-/
import LogSearch.Search.Worker

set_option autoImplicit false

namespace LogSearch.Search

/-! ## The sink -/

namespace Results

variable (limit : Int) (batch : List Record) (r : Results)

/-- A batch is refused exactly if it does not fit. -/
theorem accept_fst : (accept limit batch r).1 = decide (limit < r.records.size + batch.length) := by
  rw [accept]
  split <;> simp_all

/-- The records behind a batch: all of them, cut at the limit. -/
theorem accept_records (room : r.records.size ≤ limit.toNat) :
    (accept limit batch r).2.records.toList
      = (r.records.toList ++ batch).take limit.toNat := by
  have hcut : (limit - r.records.size).toNat = limit.toNat - r.records.size := by omega
  have hlen : r.records.toList.length = r.records.size := Array.length_toList
  have hall : r.records.toList.take limit.toNat = r.records.toList :=
    List.take_of_length_le (by omega)
  rw [accept]
  split
  · simp only [add, Array.toList_appendList, hcut]
    rw [List.take_append, hall, hlen]
  · simp only [add, Array.toList_appendList]
    rw [List.take_of_length_le (by rw [List.length_append]; omega)]

/-- Records count as left out once a batch was refused. -/
theorem accept_isCapped :
    (accept limit batch r).2.isCapped = (r.isCapped || (accept limit batch r).1) := by
  rw [accept]
  split <;> simp [add]

end Results

/-! ## Handing over -/

namespace Progress

variable (limit : Int) (source : String) (haul : Haul) (p : Progress Results)

/-- Whether a haul does not fit behind the records that the sink holds. -/
def Overflows : Prop :=
  limit.toNat < p.sink.records.size + haul.records.size

instance : Decidable (p.Overflows limit haul) :=
  inferInstanceAs (Decidable (_ < _))

section

variable (room : p.sink.records.size ≤ limit.toNat)

include room

/-- Delivering a haul, with an empty one and a refused one told by one test. -/
theorem deliver_eq :
    (p.deliver (Results.sink limit) haul.records).sink.records.toList
        = (p.sink.records.toList ++ haul.records.toList).take limit.toNat
      ∧ (p.deliver (Results.sink limit) haul.records).sink.isCapped
        = (p.sink.isCapped || decide (p.Overflows limit haul))
      ∧ (p.deliver (Results.sink limit) haul.records).isFull
        = (p.isFull || decide (p.Overflows limit haul))
      ∧ (p.deliver (Results.sink limit) haul.records).signal
        = if p.Overflows limit haul then p.signal.raise else p.signal := by
  have hlen : p.sink.records.toList.length = p.sink.records.size := Array.length_toList
  -- an empty haul is not passed on, but it would fit, so both cases meet in the same test
  by_cases hempty : haul.records.isEmpty = true
  · have hnil : haul.records = #[] := Array.isEmpty_iff.mp hempty
    have hfits : ¬ p.Overflows limit haul := by
      simp only [Overflows, hnil, List.size_toArray, List.length_nil]
      omega
    rw [deliver, if_pos hempty, hnil, List.append_nil, List.take_of_length_le (by omega)]
    simp [hfits]
  · have hpos : 0 < haul.records.size := by
      rw [Array.isEmpty_iff_size_eq_zero] at hempty
      omega
    have hsize : haul.records.toList.length = haul.records.size := Array.length_toList
    have htest : (limit < (p.sink.records.size : Int) + haul.records.toList.length)
        ↔ p.Overflows limit haul := by
      rw [Overflows]
      omega
    have hfst : (Results.accept limit haul.records.toList p.sink).1
        = decide (p.Overflows limit haul) := by
      rw [Results.accept_fst, decide_eq_decide]
      exact htest
    rw [deliver, if_neg hempty]
    simp only [Results.sink, Results.accept_records _ _ _ room, Results.accept_isCapped, hfst,
      decide_eq_true_eq, and_self]

/-- The sink holds what it held and the haul behind it, cut at the limit. -/
theorem handOver_records :
    (p.handOver (Results.sink limit) source haul).sink.records.toList
      = (p.sink.records.toList ++ haul.records.toList).take limit.toNat := by
  rw [← (deliver_eq limit haul p room).1, handOver]
  dsimp only
  split <;> rfl

/-- Records are left out if the haul does not fit, or if it was cut short itself. -/
theorem handOver_isCapped :
    (p.handOver (Results.sink limit) source haul).sink.isCapped
      = (p.sink.isCapped || decide (p.Overflows limit haul) || haul.isCapped) := by
  rw [← (deliver_eq limit haul p room).2.1, handOver]
  dsimp only
  split <;> simp_all [Results.sink, Results.noteCapped]

/-- The sink is full once a haul does not fit. -/
theorem handOver_isFull :
    (p.handOver (Results.sink limit) source haul).isFull
      = (p.isFull || decide (p.Overflows limit haul)) :=
  (deliver_eq limit haul p room).2.2.1

/-- A haul that does not fit puts the signal up. -/
theorem handOver_signal :
    (p.handOver (Results.sink limit) source haul).signal
      = if p.Overflows limit haul then p.signal.raise else p.signal :=
  (deliver_eq limit haul p room).2.2.2

/-- The records stay within the limit. -/
theorem handOver_room :
    (p.handOver (Results.sink limit) source haul).sink.records.size ≤ limit.toNat := by
  rw [← Array.length_toList, handOver_records limit source haul p room]
  exact List.length_take_le _ _

end

/-! ## The counters, for any sink -/

section

variable {σ : Type} (sink : Sink σ) (q : Progress σ)

@[simp] theorem handOver_completed :
    (q.handOver sink source haul).completed = q.completed + 1 := by
  rw [handOver, deliver]
  split <;> rfl

@[simp] theorem handOver_matched :
    (q.handOver sink source haul).matched = q.matched + haul.records.size := by
  rw [handOver, deliver]
  split <;> simp_all

@[simp] theorem handOver_failures : (q.handOver sink source haul).failures = q.failures := by
  rw [handOver, deliver]
  split <;> rfl

/-- Once up, the signal stays up behind a log that is handed over. -/
theorem handOver_isUp (hup : q.signal.isUp = true) :
    (q.handOver sink source haul).signal.isUp = true := by
  rw [handOver, deliver]
  split
  · exact hup
  · dsimp only
    split
    · rfl
    · exact hup

end

end Progress

end LogSearch.Search
