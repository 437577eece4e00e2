/-
What requests do to the engine of the service.

Only two kinds of requests touch the engine: a search that is taken in claims the slot, and
calling off raises the signal of its holder. All other requests leave the engine as it is, and so
does a search that is refused.
-/
import LogSearch.Proofs.Search.Tenure
import LogSearch.Proofs.Service.Parameters
import LogSearch.Service.Handling

set_option autoImplicit false

namespace LogSearch.Service

variable {s : Service} {m : Members} {p : SearchParameters}

/-- A search that is in order is taken in if the slot can be claimed. -/
theorem receive_of_valid (hread : readSearch s.engine.settings m = .ok p)
    (hsources : s.workspace.hasSources = true) :
    s.receive m = match s.engine.acquire with
      | .error e => (.error (.denied 409 e.message), s)
      | .ok engine => (.ok p, { s with engine }) := by
  have hthere : ¬ (!s.workspace.hasSources) = true := by
    rw [hsources]
    exact Bool.false_ne_true
  rw [receive, hread]
  exact if_neg hthere

theorem receive_of_no_sources (hread : readSearch s.engine.settings m = .ok p)
    (hsources : s.workspace.hasSources = false) :
    s.receive m = (.error (.denied 400 "No log files are loaded"), s) := by
  rw [receive, hread]
  simp only [hsources, Bool.not_false, if_true]

/-- **What becomes of a search.** If it is refused, nothing has changed. If it is taken in, it was
in order, and the slot was free and is claimed. -/
theorem receive_cases (s : Service) (m : Members) :
    (∃ refusal, s.receive m = (.error refusal, s))
      ∨ ∃ p, readSearch s.engine.settings m = .ok p ∧ s.engine.isTaken = false
        ∧ s.receive m = (.ok p, { s with engine := s.engine.claimed }) := by
  cases hread : readSearch s.engine.settings m with
  | error refusal => exact .inl ⟨refusal, by rw [receive, hread]⟩
  | ok p =>
    cases hsources : s.workspace.hasSources with
    | false => exact .inl ⟨_, receive_of_no_sources hread hsources⟩
    | true =>
      rw [receive_of_valid hread hsources]
      cases htaken : s.engine.isTaken with
      | true =>
        rw [Search.Engine.acquire_of_isTaken htaken]
        exact .inl ⟨_, rfl⟩
      | false =>
        rw [Search.Engine.acquire_of_free htaken]
        exact .inr ⟨p, rfl, rfl, rfl⟩

/-- No search is for less than one record. -/
theorem maxResults_pos {settings : Settings.Engine} (h : readSearch settings m = .ok p) :
    0 < p.maxResults :=
  (readSearch_eq_ok_iff.mp h).positive

theorem engine_upload (files : List Upload) (s : Service) :
    (s.upload files).2.engine = s.engine := by
  induction files generalizing s with
  | nil => rfl
  | cons file files ih =>
    rw [upload]
    split
    · rfl
    · exact ih s
    · exact ih _

theorem engine_deleteFile (index : String) (s : Service) :
    (s.deleteFile index).2.engine = s.engine := by
  rw [deleteFile]
  split
  · rfl
  · split <;> rfl

theorem engine_takeBundle (bundle : Remote.Bundle) (s : Service) :
    (s.takeBundle bundle).2.engine = s.engine := by
  rw [takeBundle]
  split <;> rfl

theorem engine_settleFetch (fetched : Except Remote.Fault Remote.Bundle) (s : Service) :
    (s.settleFetch fetched).2.engine = s.engine := by
  rcases fetched with fault | bundle
  · cases fault <;> rfl
  · exact engine_takeBundle bundle s

theorem engine_of_fetchBundle {link : Remote.Link} {result : Except Refusal Content}
    {requests : List Remote.Request} {after : Service}
    (h : s.fetchBundle link m = (result, requests, after)) : after.engine = s.engine := by
  rw [fetchBundle] at h
  cases hread : readFetch s.remote m with
  | error refusal =>
    rw [hread] at h
    cases h
    rfl
  | ok p =>
    rw [hread] at h
    obtain ⟨-, hrest⟩ := Prod.mk.inj h
    obtain ⟨-, rfl⟩ := Prod.mk.inj hrest
    exact engine_settleFetch _ s

theorem engine_fetchBundle (link : Remote.Link) (m : Members) (s : Service) :
    (s.fetchBundle link m).2.2.engine = s.engine := by
  rcases hfetch : s.fetchBundle link m with ⟨result, requests, after⟩
  exact engine_of_fetchBundle hfetch

/-- **No other request** than a search does anything to the engine but calling off. -/
theorem engine_handleAt (link : Remote.Link) (body : Body) {endpoint : Endpoint}
    (h : endpoint = .search → ∀ m, body.members ≠ .ok m) (s : Service) :
    (s.handleAt link body endpoint).service.engine = s.engine
      ∨ (s.handleAt link body endpoint).service.engine = s.engine.cancel.2 := by
  cases endpoint with
  | upload =>
    simp only [handleAt]
    cases body.uploads with
    | error refusal => exact .inl rfl
    | ok files => exact .inl (engine_upload files s)
  | deleteFile index =>
    simp only [handleAt]
    exact .inl (engine_deleteFile index s)
  | search =>
    simp only [handleAt]
    cases hmembers : body.members with
    | error refusal => exact .inl rfl
    | ok m => exact absurd hmembers (h rfl m)
  | fetchBundle =>
    simp only [handleAt]
    cases body.members with
    | error refusal => exact .inl rfl
    | ok m => exact .inl (engine_fetchBundle link m s)
  | cancelSearch => exact .inr rfl
  | health => exact .inl rfl
  | listFiles => exact .inl rfl
  | timeRange => exact .inl rfl
  | presetRange name => exact .inl rfl
  | validateQuery => exact .inl rfl
  | exportResults => exact .inl rfl

theorem engine_handle (link : Remote.Link) {r : Request}
    (h : r.endpoint = .ok .search → ∀ m, r.body.members ≠ .ok m) (s : Service) :
    (s.handle link r).service.engine = s.engine
      ∨ (s.handle link r).service.engine = s.engine.cancel.2 := by
  rw [handle]
  cases hendpoint : r.endpoint with
  | error refusal => exact .inl rfl
  | ok endpoint =>
    exact engine_handleAt link r.body (fun hsearch => h (hsearch ▸ hendpoint)) s

end LogSearch.Service
