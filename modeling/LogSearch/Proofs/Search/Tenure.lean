/-
An engine among its clients.

Clients claim the slot of an engine and give it back, begin searches, call off what is on, and
searches come to their ends, in any order. What a client may do is limited by one rule only: a
claim is used by the one to whom it was granted. So a state is an engine together with the claims
that were granted and not used up, and the searches that have begun and not ended, each by the
number of its signal (`Desk`).

A step is refused, or it does what it is there for (`Desk.step_cases`). From this follows one
invariant, `Desk.Held`: these claims and searches are exactly the one whose signal the engine has
noted, or none if the slot is free. Numbers are never given out twice, so as long as the engine
has noted the same number, the slot has been in the same hands (`Desk.token_of_after`), and what
has happened to the signal since then is known.
-/
import LogSearch.Search.Engine

set_option autoImplicit false

namespace LogSearch.Search

/-! ## The operations of the engine -/

namespace Engine

variable {e : Engine}

theorem acquire_of_isTaken (h : e.isTaken = true) : e.acquire = .error .busy := by
  rw [acquire, if_pos h]

/-- The slot is taken, and a new signal, which is down, is noted. -/
def claimed (e : Engine) : Engine :=
  { e with
    isTaken := true
    token := some e.signals.size
    signals := e.signals.push {} }

theorem acquire_of_free (h : e.isTaken = false) : e.acquire = .ok e.claimed := by
  rw [acquire, if_neg (by rw [h]; exact Bool.false_ne_true)]
  rfl

/-- Behind a release the slot is free, even if it was not taken. -/
theorem release_snd (e : Engine) : e.release.2 = { e with token := none, isTaken := false } := by
  obtain ⟨settings, isTaken, token, signals, results, summary⟩ := e
  cases isTaken <;> rfl

theorem cancel_fst (e : Engine) : e.cancel.1 = e.token.isSome := by
  rw [cancel]
  split <;> simp_all

/-- Calling off changes nothing but the signal that is noted. -/
theorem cancel_snd (e : Engine) :
    e.cancel.2 = { e with
      signals := e.token.elim e.signals fun number => e.signals.modify number Signal.raise } := by
  obtain ⟨settings, isTaken, token, signals, results, summary⟩ := e
  cases token <;> rfl

/-- Remembering a search touches nothing else. -/
theorem remember_eq (ending : Ending Results) (e : Engine) :
    e.remember ending = { e with
      lastResults := (e.remember ending).lastResults
      lastSummary := (e.remember ending).lastSummary } := by
  rw [remember]
  split <;> rfl

/-- **The end of a search.** The search is remembered if it is complete, and the slot is free,
however it has ended. -/
theorem complete_snd (ending : Ending Results) (e : Engine) :
    (e.complete ending).2 = { e.remember ending with token := none, isTaken := false } := by
  rw [← release_snd, complete]
  rcases hrelease : (e.remember ending).release with ⟨_ | _, _⟩ <;> rfl

/-- What a search that holds the slot returns when it ends. -/
theorem complete_fst (h : e.isTaken = true) (ending : Ending Results) :
    (e.complete ending).1 = ⟨ending.sink, ending.report.mapError .aborted⟩ := by
  have htaken : (e.remember ending).isTaken = true := by
    rw [remember_eq]
    exact h
  rw [complete, release, if_pos htaken]

end Engine

/-! ## Clients -/

/-- An engine with the claims that were granted and not used up, and the searches that have begun
and not ended. -/
structure Desk where
  /-- The engine. -/
  engine : Engine
  /-- The claims. -/
  claims : List Nat := []
  /-- The searches. -/
  searches : List Nat := []

/-- What can happen at an engine. -/
inductive Step where
  /-- A client claims the slot. -/
  | acquire
  /-- The client with a claim gives the slot back. -/
  | release (claim : Nat)
  /-- A search begins that claims the slot by itself. -/
  | begin
  /-- A search begins for the client with a claim. -/
  | beginClaimed (claim : Nat)
  /-- The sink of a search wants no more, and the search puts up its signal. -/
  | fill (search : Nat)
  /-- A search comes to an ending, proper or not. -/
  | finish (search : Nat) (ending : Ending Results)
  /-- A client calls off what is on. -/
  | cancel

namespace Desk

/-- What happens at a step. A client without the claim, and a search that is not on, do nothing;
a refusal changes nothing. -/
def step (d : Desk) : Step → Desk
  | .acquire =>
    match d.engine.acquire with
    | .error _ => d
    | .ok engine => { d with engine, claims := engine.token.toList ++ d.claims }
  | .release claim =>
    if claim ∈ d.claims then
      { d with engine := d.engine.release.2, claims := d.claims.erase claim }
    else d
  | .begin =>
    match d.engine.start false with
    | .error _ => d
    | .ok engine => { d with engine, searches := engine.token.toList ++ d.searches }
  | .beginClaimed claim =>
    if claim ∈ d.claims then
      match d.engine.start true with
      | .error _ => d
      | .ok engine => { engine, claims := d.claims.erase claim,
                        searches := engine.token.toList ++ d.searches }
    else d
  | .fill search =>
    if search ∈ d.searches then
      { d with engine := { d.engine with
          signals := d.engine.signals.modify search Signal.raise } }
    else d
  | .finish search ending =>
    if search ∈ d.searches then
      { d with engine := (d.engine.complete ending).2, searches := d.searches.erase search }
    else d
  | .cancel => { d with engine := d.engine.cancel.2 }

/-- The state behind a number of steps. -/
def after (d : Desk) (history : List Step) : Desk :=
  history.foldl step d

/-- Whether the signal of some number is up. -/
def isUp (d : Desk) (number : Nat) : Bool :=
  d.engine.signals[number]?.any (·.isUp)

/-! ## What a step can be -/

/-- Whether whoever makes a step may make it, and is not refused. -/
def Permits (d : Desk) : Step → Prop
  | .acquire => d.engine.isTaken = false
  | .release claim => claim ∈ d.claims
  | .begin => d.engine.isTaken = false
  | .beginClaimed claim => claim ∈ d.claims
  | .fill search => search ∈ d.searches
  | .finish search _ => search ∈ d.searches
  | .cancel => True

/-- What becomes of an engine and its clients at a step. -/
inductive Makes (d : Desk) : Step → Desk → Prop
  /-- A step that is not permitted changes nothing. -/
  | idle {s : Step} (hnot : ¬ d.Permits s) : Makes d s d
  /-- The slot goes to a client, with a new signal. -/
  | acquired (hfree : d.engine.isTaken = false) :
      Makes d .acquire
        { d with
          engine := d.engine.claimed
          claims := d.engine.signals.size :: d.claims }
  /-- The slot is given back. -/
  | released {claim : Nat} (hclaim : claim ∈ d.claims) :
      Makes d (.release claim)
        { d with
          engine := { d.engine with token := none, isTaken := false }
          claims := d.claims.erase claim }
  /-- The slot goes to a search, with a new signal. -/
  | begun (hfree : d.engine.isTaken = false) :
      Makes d .begin
        { d with
          engine := d.engine.claimed
          searches := d.engine.signals.size :: d.searches }
  /-- A claim is used up by a search. -/
  | begunClaimed {claim : Nat} (hclaim : claim ∈ d.claims) :
      Makes d (.beginClaimed claim)
        { d with
          claims := d.claims.erase claim
          searches := d.engine.token.toList ++ d.searches }
  /-- A search puts up its own signal. -/
  | filled {search : Nat} (hsearch : search ∈ d.searches) :
      Makes d (.fill search)
        { d with engine := { d.engine with
            signals := d.engine.signals.modify search Signal.raise } }
  /-- A search is remembered if it has a report, and the slot is given back. -/
  | finished {search : Nat} {ending : Ending Results} (hsearch : search ∈ d.searches) :
      Makes d (.finish search ending)
        { d with
          engine := { d.engine.remember ending with token := none, isTaken := false }
          searches := d.searches.erase search }
  /-- The signal that is noted is put up, if there is one. -/
  | cancelled :
      Makes d .cancel
        { d with engine := { d.engine with
            signals := d.engine.token.elim d.engine.signals fun number =>
              d.engine.signals.modify number Signal.raise } }

/-- A refused claim changes nothing, and neither does a refused search. -/
theorem step_of_isTaken {d : Desk} (h : d.engine.isTaken = true) :
    d.step .acquire = d ∧ d.step .begin = d := by
  simp only [step, Engine.start, Engine.acquire_of_isTaken h, Bool.false_eq_true, if_false,
    and_self]

theorem step_of_not_permits {d : Desk} {s : Step} (h : ¬ d.Permits s) : d.step s = d := by
  cases s with
  | acquire => exact (step_of_isTaken (Bool.not_eq_false _ ▸ h)).1
  | release claim => exact if_neg h
  | begin => exact (step_of_isTaken (Bool.not_eq_false _ ▸ h)).2
  | beginClaimed claim => exact if_neg h
  | fill search => exact if_neg h
  | finish search ending => exact if_neg h
  | cancel => exact absurd trivial h

/-- **What a step can be.** It is not permitted, or it does what it is there for. -/
theorem step_cases (d : Desk) (s : Step) : ∃ next, d.step s = next ∧ d.Makes s next := by
  refine ⟨_, rfl, ?_⟩
  by_cases h : d.Permits s
  · cases s with
    | acquire =>
      simp only [step, Engine.acquire_of_free h]
      exact .acquired h
    | release claim =>
      have hclaim : claim ∈ d.claims := h
      rw [step, if_pos hclaim, Engine.release_snd]
      exact .released hclaim
    | begin =>
      simp only [step, Engine.start, Bool.false_eq_true, if_false, Engine.acquire_of_free h]
      exact .begun h
    | beginClaimed claim =>
      have hclaim : claim ∈ d.claims := h
      rw [step, if_pos hclaim]
      exact .begunClaimed hclaim
    | fill search =>
      have hsearch : search ∈ d.searches := h
      rw [step, if_pos hsearch]
      exact .filled hsearch
    | finish search ending =>
      have hsearch : search ∈ d.searches := h
      rw [step, if_pos hsearch, Engine.complete_snd]
      exact .finished hsearch
    | cancel =>
      rw [step, Engine.cancel_snd]
      exact .cancelled
  · rw [step_of_not_permits h]
    exact .idle h

/-! ## The invariant -/

/-- The slot is in one hand: the claims and searches are the one whose signal the engine has
noted, and it has noted one exactly if the slot is taken. -/
structure Held (d : Desk) : Prop where
  token_isSome : d.engine.token.isSome = d.engine.isTaken
  holders : d.claims ++ d.searches = d.engine.token.toList
  issued : ∀ number ∈ d.engine.token, number < d.engine.signals.size
  remembered : d.engine.lastResults.isSome = d.engine.lastSummary.isSome

section Held

variable {d : Desk}

/-- The holder of a claim is the only one who holds the slot. -/
theorem Held.of_mem_claims (h : d.Held) {claim : Nat} (hclaim : claim ∈ d.claims) :
    d.claims = [claim] ∧ d.searches = [] ∧ d.engine.token = some claim
      ∧ d.engine.isTaken = true := by
  have hmem : claim ∈ d.engine.token.toList := h.holders ▸ List.mem_append_left _ hclaim
  have htoken : d.engine.token = some claim := Option.mem_toList.mp hmem
  have hholders := h.holders
  have htaken := h.token_isSome
  rw [htoken] at hholders htaken
  rcases List.append_eq_singleton_iff.mp hholders with ⟨hnone, -⟩ | ⟨hone, hnone⟩
  · rw [hnone] at hclaim
    cases hclaim
  · exact ⟨hone, hnone, htoken, htaken.symm⟩

/-- A search that is on is the only one who holds the slot. -/
theorem Held.of_mem_searches (h : d.Held) {search : Nat} (hsearch : search ∈ d.searches) :
    d.claims = [] ∧ d.searches = [search] ∧ d.engine.token = some search
      ∧ d.engine.isTaken = true := by
  have hmem : search ∈ d.engine.token.toList := h.holders ▸ List.mem_append_right _ hsearch
  have htoken : d.engine.token = some search := Option.mem_toList.mp hmem
  have hholders := h.holders
  have htaken := h.token_isSome
  rw [htoken] at hholders htaken
  rcases List.append_eq_singleton_iff.mp hholders with ⟨hnone, hone⟩ | ⟨-, hnone⟩
  · exact ⟨hnone, hone, htoken, htaken.symm⟩
  · rw [hnone] at hsearch
    cases hsearch

theorem Held.of_free (h : d.Held) (hfree : d.engine.isTaken = false) :
    d.claims = [] ∧ d.searches = [] ∧ d.engine.token = none := by
  have htoken : d.engine.token = none := by
    rw [← Option.isNone_iff_eq_none, ← Option.not_isSome, h.token_isSome, hfree]
    rfl
  have hholders := h.holders
  rw [htoken] at hholders
  obtain ⟨hclaims, hsearches⟩ := List.append_eq_nil_iff.mp hholders
  exact ⟨hclaims, hsearches, htoken⟩

/-- **One step** leaves the slot in one hand. -/
theorem Held.step (h : d.Held) (s : Step) : (d.step s).Held := by
  obtain ⟨next, hstep, hmakes⟩ := d.step_cases s
  rw [hstep]
  -- whoever gives the slot back was the only one who held it, and whoever takes it found it free
  cases hmakes with
  | idle => exact h
  | acquired hfree =>
    obtain ⟨hclaims, hsearches, -⟩ := h.of_free hfree
    refine ⟨rfl, ?_, ?_, h.remembered⟩
    · simp only [hclaims, hsearches, List.append_nil, Engine.claimed, Option.toList_some]
    · simp [Engine.claimed]
  | released hclaim =>
    obtain ⟨hone, hnone, -⟩ := h.of_mem_claims hclaim
    refine ⟨rfl, ?_, nofun, h.remembered⟩
    simp only [hone, hnone, List.erase_cons_head, List.append_nil, Option.toList_none]
  | begun hfree =>
    obtain ⟨hclaims, hsearches, -⟩ := h.of_free hfree
    refine ⟨rfl, ?_, ?_, h.remembered⟩
    · simp only [hclaims, hsearches, List.nil_append, Engine.claimed, Option.toList_some]
    · simp [Engine.claimed]
  | begunClaimed hclaim =>
    obtain ⟨hone, hnone, htoken, -⟩ := h.of_mem_claims hclaim
    refine ⟨h.token_isSome, ?_, h.issued, h.remembered⟩
    simp only [hone, hnone, List.erase_cons_head, List.append_nil, List.nil_append]
  | filled =>
    refine ⟨h.token_isSome, h.holders, ?_, h.remembered⟩
    simpa only [Array.size_modify] using h.issued
  | @finished search ending hsearch =>
    obtain ⟨hnone, hone, -⟩ := h.of_mem_searches hsearch
    refine ⟨rfl, ?_, nofun, ?_⟩
    · simp only [hone, hnone, List.erase_cons_head, List.append_nil, Option.toList_none]
    · show (d.engine.remember ending).lastResults.isSome
        = (d.engine.remember ending).lastSummary.isSome
      rw [Engine.remember]
      split
      · rfl
      · exact h.remembered
  | cancelled =>
    refine ⟨h.token_isSome, h.holders, ?_, h.remembered⟩
    intro number hnumber
    have hlt := h.issued number hnumber
    have htoken : d.engine.token = some number := hnumber
    simpa only [htoken, Option.elim_some, Array.size_modify] using hlt

/-- **Any history** leaves the slot in one hand. -/
theorem Held.after (h : d.Held) (history : List Step) : (d.after history).Held := by
  induction history generalizing d with
  | nil => exact h
  | cons s history ih => exact ih (h.step s)

theorem held_fresh (settings : Settings.Engine) : Held { engine := { settings } } :=
  ⟨rfl, rfl, nofun, rfl⟩

end Held

/-! ## Signals -/

section Signals

variable {d : Desk} {number : Nat}

/-- **What a step does to the signals.** It puts none up, and the slot may become free; or it
gives out a new one for the holder of the slot; or it puts one up, that of the holder if the
search is called off. -/
theorem step_signals (d : Desk) (s : Step) :
    ((d.step s).engine.signals = d.engine.signals
        ∧ ∀ number, (d.step s).engine.token = some number → d.engine.token = some number)
      ∨ ((d.step s).engine.signals = d.engine.signals.push {}
        ∧ (d.step s).engine.token = some d.engine.signals.size)
      ∨ ∃ raised, (d.step s).engine.signals = d.engine.signals.modify raised Signal.raise
        ∧ (d.step s).engine.token = d.engine.token
        ∧ (s = .cancel ∧ d.engine.token = some raised ∨ s = .fill raised) := by
  obtain ⟨next, hstep, hmakes⟩ := d.step_cases s
  rw [hstep]
  cases hmakes with
  | idle | begunClaimed => exact .inl ⟨rfl, fun _ h => h⟩
  | acquired | begun => exact .inr (.inl ⟨rfl, rfl⟩)
  | released => exact .inl ⟨rfl, nofun⟩
  | filled => exact .inr (.inr ⟨_, rfl, rfl, .inr rfl⟩)
  | finished =>
    rw [Engine.remember_eq]
    exact .inl ⟨rfl, nofun⟩
  | cancelled =>
    cases htoken : d.engine.token with
    | none => exact .inl ⟨rfl, fun _ h => h⟩
    | some noted => exact .inr (.inr ⟨noted, rfl, rfl, .inl ⟨rfl, rfl⟩⟩)

theorem size_signals_le_step (d : Desk) (s : Step) :
    d.engine.signals.size ≤ (d.step s).engine.signals.size := by
  rcases d.step_signals s with ⟨hsame, -⟩ | ⟨hpush, -⟩ | ⟨raised, hmodify, -⟩
  · exact Nat.le_of_eq (congrArg Array.size hsame.symm)
  · rw [hpush, Array.size_push]
    exact Nat.le_succ _
  · exact Nat.le_of_eq (by rw [hmodify, Array.size_modify])

/-- A number that is noted was noted before, unless it is new. -/
theorem token_of_step (hnumber : number < d.engine.signals.size) {s : Step}
    (h : (d.step s).engine.token = some number) : d.engine.token = some number := by
  rcases d.step_signals s with ⟨-, hold⟩ | ⟨-, hnew⟩ | ⟨raised, -, hsame, -⟩
  · exact hold number h
  · rw [hnew, Option.some.injEq] at h
    omega
  · rwa [← hsame]

/-- **A tenure has no gaps.** -/
theorem token_of_after (hnumber : number < d.engine.signals.size) {history : List Step}
    (h : (d.after history).engine.token = some number) : d.engine.token = some number := by
  induction history generalizing d with
  | nil => exact h
  | cons s history ih =>
    have hstep := ih (Nat.lt_of_lt_of_le hnumber (d.size_signals_le_step s)) h
    exact token_of_step hnumber hstep

theorem isUp_modify_raise {signals : Array Signal} {raised : Nat} :
    ((signals.modify raised Signal.raise)[number]?.any (·.isUp)) = true
      ↔ signals[number]?.any (·.isUp) = true ∨ (number = raised ∧ number < signals.size) := by
  rw [Array.getElem?_modify]
  by_cases hsame : raised = number
  · subst hsame
    rw [if_pos rfl, Option.any_map]
    by_cases hlt : raised < signals.size
    · simp [hlt, Signal.raise]
    · simp [hlt]
  · rw [if_neg hsame]
    exact ⟨.inl, fun h => h.elim id fun h => absurd h.1.symm hsame⟩

/-- A signal that is up was up before, or was put up by this step. -/
theorem isUp_of_step (hnumber : number < d.engine.signals.size) {s : Step}
    (h : (d.step s).isUp number = true) :
    d.isUp number = true ∨ s = .cancel ∨ s = .fill number := by
  rcases d.step_signals s with ⟨hsame, -⟩ | ⟨hpush, -⟩ | ⟨raised, hmodify, -, hcause⟩
  · rw [isUp, hsame] at h
    exact .inl h
  · rw [isUp, hpush, Array.getElem?_push, if_neg (Nat.ne_of_lt hnumber)] at h
    exact .inl h
  · rw [isUp, hmodify] at h
    rcases isUp_modify_raise.mp h with hbefore | ⟨rfl, -⟩
    · exact .inl hbefore
    · exact .inr (hcause.imp And.left id)

/-- A signal stays up. -/
theorem isUp_step (h : d.isUp number = true) (s : Step) : (d.step s).isUp number = true := by
  rw [isUp] at h ⊢
  rcases d.step_signals s with ⟨hsame, -⟩ | ⟨hpush, -⟩ | ⟨raised, hmodify, -⟩
  · rwa [hsame]
  · obtain ⟨signal, hsignal, -⟩ := (Option.any_eq_true _ _).mp h
    have hlt : number < d.engine.signals.size := (Array.getElem?_eq_some_iff.mp hsignal).1
    rwa [hpush, Array.getElem?_push, if_neg (Nat.ne_of_lt hlt)]
  · rw [hmodify]
    exact isUp_modify_raise.mpr (.inl h)

theorem isUp_after (h : d.isUp number = true) (history : List Step) :
    (d.after history).isUp number = true := by
  induction history generalizing d with
  | nil => exact h
  | cons s history ih => exact ih (isUp_step h s)

/-- **What puts a signal up.** Behind any history a signal is up only if it was up before, or
there was a call-off since, or the search of that signal has put it up. -/
theorem isUp_of_after (hnumber : number < d.engine.signals.size) {history : List Step}
    (h : (d.after history).isUp number = true) :
    d.isUp number = true ∨ .cancel ∈ history ∨ .fill number ∈ history := by
  induction history generalizing d with
  | nil => exact .inl h
  | cons s history ih =>
    rcases ih (Nat.lt_of_lt_of_le hnumber (d.size_signals_le_step s)) h with hstep | hcancel | hfill
    · rcases isUp_of_step hnumber hstep with hbefore | rfl | rfl
      · exact .inl hbefore
      · exact .inr (.inl List.mem_cons_self)
      · exact .inr (.inr List.mem_cons_self)
    · exact .inr (.inl (List.mem_cons_of_mem _ hcancel))
    · exact .inr (.inr (List.mem_cons_of_mem _ hfill))

/-- A call-off puts up the signal of whoever holds the slot. -/
theorem isUp_step_cancel (hnumber : number < d.engine.signals.size)
    (htoken : d.engine.token = some number) : (d.step .cancel).isUp number = true := by
  simp only [isUp, step, Engine.cancel_snd, htoken, Option.elim_some]
  exact isUp_modify_raise.mpr (.inr ⟨rfl, hnumber⟩)

/-- **What a call-off does.** A holder of the slot who was called off at any time since finds its
signal up. -/
theorem isUp_after_of_mem (hnumber : number < d.engine.signals.size) {history : List Step}
    (htoken : (d.after history).engine.token = some number) (h : .cancel ∈ history) :
    (d.after history).isUp number = true := by
  induction history generalizing d with
  | nil => cases h
  | cons s history ih =>
    rcases List.mem_cons.mp h with rfl | hlater
    · exact isUp_after (isUp_step_cancel hnumber (token_of_after hnumber htoken)) history
    · exact ih (Nat.lt_of_lt_of_le hnumber (d.size_signals_le_step s)) htoken hlater

/-- Whoever takes the slot when it is free has a new signal, which is down. -/
theorem of_token_step (h : d.Held) (hfree : d.engine.isTaken = false) {take : Step}
    (htoken : (d.step take).engine.token = some number) :
    number < (d.step take).engine.signals.size ∧ (d.step take).isUp number = false := by
  have hnone : d.engine.token = none := (h.of_free hfree).2.2
  rcases d.step_signals take with ⟨-, hold⟩ | ⟨hpush, hnew⟩ | ⟨raised, -, hsame, -⟩
  · rw [hold number htoken] at hnone
    cases hnone
  · obtain rfl : d.engine.signals.size = number := Option.some.inj (hnew.symm.trans htoken)
    rw [isUp, hpush, Array.size_push, Array.getElem?_push, if_pos rfl]
    exact ⟨Nat.lt_succ_self _, rfl⟩
  · rw [← hsame, htoken] at hnone
    cases hnone

end Signals

/-! ## Searches of the program -/

section Search

variable {d : Desk} (environment : Environment) (criteria : Criteria) (maxResults : Int)
  (tasks : List Task)

/-- A search without a claim is the step with which it begins, and the step with which it comes to
the ending of its run. -/
theorem step_finish_step_begin (h : d.Held) (hfree : d.engine.isTaken = false) :
    let job : Job := { criteria, environment, settings := d.engine.settings }
    let ending := Search.run job (Results.sink maxResults) {} {} tasks
    (d.step .begin).step (.finish d.engine.signals.size ending)
      = { d with engine := (d.engine.search environment criteria maxResults false tasks).2 } := by
  obtain ⟨hclaims, hsearches, -⟩ := h.of_free hfree
  simp [step, Engine.search, Engine.start, Engine.acquire_of_free hfree, Engine.claimed, hclaims,
    hsearches, Engine.signal]

/-- A search for a claim is the step with which it begins, and the step with which it comes to the
ending of its run, which looks at the signal of the claim. -/
theorem step_finish_step_beginClaimed (h : d.Held) {claim : Nat} (hclaim : claim ∈ d.claims) :
    let job : Job := { criteria, environment, settings := d.engine.settings }
    let ending := Search.run job (Results.sink maxResults)
      ((d.engine.signals[claim]?).getD {}) {} tasks
    (d.step (.beginClaimed claim)).step (.finish claim ending)
      = { engine := (d.engine.search environment criteria maxResults true tasks).2 } := by
  obtain ⟨hclaims, hsearches, htoken, -⟩ := h.of_mem_claims hclaim
  simp [step, Engine.search, Engine.start, hclaims, hsearches, htoken, Engine.signal]

end Search

/-! ## What clients can rely on -/

/-- What holds at an engine among its clients, whatever has happened so far. -/
structure Exclusive (d : Desk) : Prop where
  /-- At most one search has begun and not ended. -/
  oneSearch : d.searches.length ≤ 1
  /-- A signal is noted exactly while the slot is taken. -/
  noted : d.engine.token.isSome = d.engine.isTaken
  /-- It is the signal of the claim, or of the search, that holds the slot. -/
  holder : d.claims ++ d.searches = d.engine.token.toList
  /-- While the slot is taken, claims and searches are refused, and that changes nothing. -/
  refusal : d.engine.isTaken = true →
    d.engine.acquire = .error .busy
      ∧ d.step .acquire = d ∧ d.step .begin = d
      ∧ ∀ environment criteria maxResults tasks,
        d.engine.search environment criteria maxResults false tasks
          = (⟨{}, .error .busy⟩, d.engine)
  /-- A call-off finds someone exactly while the slot is taken. -/
  callOff : d.engine.cancel.1 = d.engine.isTaken
  /-- It changes no other signal than that of the holder of the slot, and nothing else at all. -/
  mark : (∀ number, d.engine.token ≠ some number →
      (d.step .cancel).engine.signals[number]? = d.engine.signals[number]?)
    ∧ d.step .cancel = { d with engine := { d.engine with
        signals := (d.step .cancel).engine.signals } }
  /-- Whoever takes the slot when it is free finds its signal up if there was a call-off since
  then. If there was none, only the search itself can have put it up. -/
  tenure : ∀ take since number, d.engine.isTaken = false →
    (d.step take).engine.token = some number →
    ((d.step take).after since).engine.token = some number →
      (.cancel ∈ since → ((d.step take).after since).isUp number = true)
        ∧ (((d.step take).after since).isUp number = true →
          .cancel ∈ since ∨ .fill number ∈ since)
  /-- A search that ends leaves the slot free, however it has ended. It is remembered if it has a
  report. -/
  ends : ∀ search ∈ d.searches, ∀ ending : Ending Results,
    d.step (.finish search ending)
      = { engine := { d.engine.remember ending with token := none, isTaken := false } }
  /-- A claim that is given back leaves the slot free. -/
  givenBack : ∀ claim ∈ d.claims,
    d.step (.release claim) = { engine := { d.engine with token := none, isTaken := false } }
  /-- What the last search has found and its report are remembered together. -/
  together : d.engine.lastResults.isSome = d.engine.lastSummary.isSome
  /-- They change only when a search ends with a report, and then both are those of that search. -/
  lastChange : ∀ s,
    ((d.step s).engine.lastResults = d.engine.lastResults
        ∧ (d.step s).engine.lastSummary = d.engine.lastSummary
        ∧ ∀ search ending summary, s = .finish search ending → search ∈ d.searches →
            ending.report ≠ .ok summary)
      ∨ ∃ search ending summary, s = .finish search ending ∧ search ∈ d.searches
        ∧ ending.report = .ok summary
        ∧ (d.step s).engine.lastResults = some ending.sink
        ∧ (d.step s).engine.lastSummary = some summary

section Exclusive

variable {d : Desk}

/-- The end of a search is the only step that touches what is remembered. -/
theorem step_last (d : Desk) {s : Step}
    (h : ∀ search ending, s = .finish search ending → search ∉ d.searches) :
    (d.step s).engine.lastResults = d.engine.lastResults
      ∧ (d.step s).engine.lastSummary = d.engine.lastSummary := by
  obtain ⟨next, hstep, hmakes⟩ := d.step_cases s
  rw [hstep]
  cases hmakes with
  | finished hsearch => exact absurd hsearch (h _ _ rfl)
  | _ => exact ⟨rfl, rfl⟩

theorem Held.step_finish (h : d.Held) {search : Nat} (hsearch : search ∈ d.searches)
    (ending : Ending Results) :
    d.step (.finish search ending)
      = { engine := { d.engine.remember ending with token := none, isTaken := false } } := by
  obtain ⟨hclaims, hone, -⟩ := h.of_mem_searches hsearch
  rw [Desk.step, if_pos hsearch, Engine.complete_snd, hclaims, hone, List.erase_cons_head]

theorem Held.lastChange (h : d.Held) (s : Step) :
    ((d.step s).engine.lastResults = d.engine.lastResults
        ∧ (d.step s).engine.lastSummary = d.engine.lastSummary
        ∧ ∀ search ending summary, s = .finish search ending → search ∈ d.searches →
            ending.report ≠ .ok summary)
      ∨ ∃ search ending summary, s = .finish search ending ∧ search ∈ d.searches
        ∧ ending.report = .ok summary
        ∧ (d.step s).engine.lastResults = some ending.sink
        ∧ (d.step s).engine.lastSummary = some summary := by
  -- only the end of a search that is on can change anything here
  by_cases hends : ∃ search ending, s = .finish search ending ∧ search ∈ d.searches
  · obtain ⟨search, ending, rfl, hsearch⟩ := hends
    rw [h.step_finish hsearch, Engine.remember]
    cases hreport : ending.report with
    | error a =>
      refine .inl ⟨rfl, rfl, ?_⟩
      rintro search' ending' summary hsame - hok
      obtain ⟨-, rfl⟩ := Step.finish.inj hsame
      rw [hreport] at hok
      cases hok
    | ok summary => exact .inr ⟨search, ending, summary, rfl, hsearch, hreport, rfl, rfl⟩
  · have hnot : ∀ search ending, s = .finish search ending → search ∉ d.searches :=
      fun search ending hs hsearch => hends ⟨search, ending, hs, hsearch⟩
    obtain ⟨hresults, hsummary⟩ := d.step_last hnot
    exact .inl ⟨hresults, hsummary,
      fun search ending summary hs hsearch => absurd hsearch (hnot search ending hs)⟩

theorem Held.tenure (h : d.Held) (hfree : d.engine.isTaken = false) {take : Step} {number : Nat}
    (htoken : (d.step take).engine.token = some number) {since : List Step}
    (hstill : ((d.step take).after since).engine.token = some number) :
    (.cancel ∈ since → ((d.step take).after since).isUp number = true)
      ∧ (((d.step take).after since).isUp number = true →
        .cancel ∈ since ∨ .fill number ∈ since) := by
  obtain ⟨hissued, hdown⟩ := of_token_step h hfree htoken
  refine ⟨isUp_after_of_mem hissued hstill, fun hup => ?_⟩
  rcases isUp_of_after hissued hup with hbefore | hsince
  · rw [hdown] at hbefore
    cases hbefore
  · exact hsince

theorem Held.exclusive (h : d.Held) : d.Exclusive where
  oneSearch := by
    have hle := (List.sublist_append_right d.claims d.searches).length_le
    rw [h.holders] at hle
    exact Nat.le_trans hle Option.length_toList_le
  noted := h.token_isSome
  holder := h.holders
  refusal := by
    intro htaken
    refine ⟨Engine.acquire_of_isTaken htaken, (step_of_isTaken htaken).1,
      (step_of_isTaken htaken).2, fun environment criteria maxResults tasks => ?_⟩
    simp only [Engine.search, Engine.start, Bool.false_eq_true, if_false,
      Engine.acquire_of_isTaken htaken]
  callOff := d.engine.cancel_fst.trans h.token_isSome
  mark := by
    refine ⟨fun number hother => ?_, ?_⟩
    · simp only [Desk.step, Engine.cancel_snd]
      cases htoken : d.engine.token with
      | none => rfl
      | some noted =>
        have hne : noted ≠ number := fun hsame => hother (hsame ▸ htoken)
        rw [Option.elim_some, Array.getElem?_modify, if_neg hne]
    · rw [Desk.step, Engine.cancel_snd]
  tenure := fun _ _ _ hfree htoken hstill => h.tenure hfree htoken hstill
  ends := fun _ hsearch ending => h.step_finish hsearch ending
  givenBack := by
    intro claim hclaim
    obtain ⟨hone, hnone, -⟩ := h.of_mem_claims hclaim
    rw [Desk.step, if_pos hclaim, Engine.release_snd, hone, hnone, List.erase_cons_head]
  together := h.remembered
  lastChange := h.lastChange

end Exclusive

end Desk

end LogSearch.Search
