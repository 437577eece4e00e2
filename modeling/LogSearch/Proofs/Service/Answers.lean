/-
What is answered to JSON objects of any shape.

Three endpoints take objects. Each answers with one of the statuses that it is meant to answer
with exactly if all that it looks at is of the right type, and with that of a crash if not
(`posted_answers`). For a fetch this takes in what the log server replies, and that a bundle which
arrives can be loaded.
-/
import LogSearch.Proofs.Ingest.Containment
import LogSearch.Proofs.Remote.Fetching
import LogSearch.Proofs.Service.Requests

set_option autoImplicit false

namespace LogSearch.Service

open Json (Value)

/-- The answer has one of the stated statuses exactly if everything is of its type. Otherwise it is
the one to a crash. -/
structure Answers (reply : Reply) (statuses : List Nat) (typed : Prop) : Prop where
  of_typed : typed → reply.status ∈ statuses
  of_not_typed : ¬ typed → reply.status = 500

theorem answers_of_reads {α : Type} {read : Except Refusal α} {typed : Prop}
    {result : Except Refusal Content} {statuses : List Nat} (h : Reads read typed)
    (hok : ∀ a, read = .ok a → (replyOf result).status ∈ statuses)
    (herror : ∀ refusal, read = .error refusal → result = .error refusal)
    (hdenied : ∀ detail, read = .error (.denied 400 detail) → 400 ∈ statuses) :
    Answers (replyOf result) statuses typed := by
  cases h with
  | ok a h htyped => exact ⟨fun _ => hok a h, fun hnot => absurd htyped hnot⟩
  | denied detail h htyped =>
    rw [herror _ h]
    exact ⟨fun _ => hdenied detail h, fun hnot => absurd htyped hnot⟩
  | crashed h hnot =>
    rw [herror _ h]
    exact ⟨fun htyped => absurd htyped hnot, fun _ => rfl⟩

variable {s : Service} {m : Members}

/-! ## Searches -/

/-- A search that is taken in is just one that is in order, where there are logs and the slot is
free. -/
theorem receive_eq_ok_iff {p : SearchParameters} :
    (∃ after, s.receive m = (.ok p, after))
      ↔ IsOrderly s.engine.settings m p ∧ s.workspace.hasSources = true
        ∧ s.engine.isTaken = false := by
  rw [← readSearch_eq_ok_iff]
  constructor
  · rintro ⟨after, h⟩
    cases hread : readSearch s.engine.settings m with
    | error refusal =>
      rw [receive, hread] at h
      cases h
    | ok q =>
      cases hsources : s.workspace.hasSources with
      | false =>
        rw [receive_of_no_sources hread hsources] at h
        cases h
      | true =>
        rw [receive_of_valid hread hsources] at h
        cases htaken : s.engine.isTaken with
        | true =>
          rw [Search.Engine.acquire_of_isTaken htaken] at h
          cases h
        | false =>
          rw [Search.Engine.acquire_of_free htaken] at h
          obtain rfl := Except.ok.inj (Prod.mk.inj h).1
          exact ⟨rfl, rfl, rfl⟩
  · rintro ⟨hread, hsources, hfree⟩
    rw [receive_of_valid hread hsources, Search.Engine.acquire_of_free hfree]
    exact ⟨_, rfl⟩

theorem search_of_refused {refusal : Refusal} {after : Service}
    (h : s.receive m = (.error refusal, after)) : (s.search m).1 = .error refusal := by
  rw [search, h]

theorem search_of_received {p : SearchParameters} {after : Service}
    (h : s.receive m = (.ok p, after)) : ∃ lines, (s.search m).1 = .ok lines := by
  rw [search, h]
  exact ⟨_, rfl⟩

/-- A search that can be read may still find no logs, or the slot taken. -/
theorem receive_of_read {p : SearchParameters} (h : readSearch s.engine.settings m = .ok p) :
    (∃ after, s.receive m = (.ok p, after))
      ∨ ∃ status detail after, s.receive m = (.error (.denied status detail), after)
        ∧ (status = 400 ∨ status = 409) := by
  cases hsources : s.workspace.hasSources with
  | false => exact .inr ⟨400, _, s, receive_of_no_sources h hsources, .inl rfl⟩
  | true =>
    rw [receive_of_valid h hsources]
    rcases s.engine.acquire with e | engine
    · exact .inr ⟨409, e.message, s, rfl, .inr rfl⟩
    · exact .inl ⟨_, rfl⟩

theorem answers_search (s : Service) (m : Members) :
    Answers (replyOf ((s.search m).1.map .lines)) [200, 400, 409] (SearchTyped m) := by
  refine answers_of_reads (reads_readSearch s.engine.settings m) (fun p h => ?_)
    (fun refusal h => ?_) fun _ _ => by decide
  · rcases receive_of_read h with ⟨after, hreceive⟩ | ⟨status, detail, after, hreceive, hstatus⟩
    · obtain ⟨lines, hlines⟩ := search_of_received hreceive
      rw [hlines]
      exact List.mem_cons_self
    · rw [search_of_refused hreceive]
      rcases hstatus with rfl | rfl
      · exact List.mem_cons_of_mem _ List.mem_cons_self
      · exact List.mem_cons_of_mem _ (List.mem_cons_of_mem _ List.mem_cons_self)
  · have hreceive : s.receive m = (.error refusal, s) := by rw [receive, h]
    rw [search_of_refused hreceive]
    rfl

/-! ## Queries -/

theorem answers_validateQuery (m : Members) :
    Answers (replyOf (validateQuery m)) [200] (QueryTyped m) := by
  refine answers_of_reads (reads_readQuery m) (fun query h => ?_) (fun refusal h => ?_)
    fun detail h => ?_
  · rw [validateQuery, h]
    cases query <;> exact List.mem_cons_self
  · rw [validateQuery, h]
    rfl
  · cases eq_crashed_of_readQuery h

/-! ## Fetches -/

theorem takeBundle_of_ends {bundle : Remote.Bundle}
    (h : Ingest.Ends s.environment.hasZstd .server bundle.path bundle.data) :
    ∃ content, (s.takeBundle bundle).1 = .ok content := by
  obtain ⟨source, hsource⟩ : ∃ source,
      Ingest.ofFile s.environment s.window .server bundle.path bundle.data = .ok source :=
    Ingest.exists_ofFile_iff.mpr h
  rw [takeBundle, Workspace.setRemote, hsource]
  exact ⟨_, rfl⟩

theorem takeBundle_of_not_ends {bundle : Remote.Bundle}
    (h : ¬ Ingest.Ends s.environment.hasZstd .server bundle.path bundle.data) :
    (s.takeBundle bundle).1 = .error .crashed := by
  rw [takeBundle, Workspace.setRemote]
  cases hsource : Ingest.ofFile s.environment s.window .server bundle.path bundle.data with
  | error a => rfl
  | ok source => exact absurd (Ingest.exists_ofFile_iff.mp ⟨source, hsource⟩) h

/-- What a fetch comes to is told, unless it broke off or the bundle cannot be loaded. -/
theorem answers_settleFetch (s : Service) (fetched : Except Remote.Fault Remote.Bundle) :
    Answers (replyOf (s.settleFetch fetched).1) [200, 502]
      (Remote.Settles fetched ∧ ∀ bundle, fetched = .ok bundle →
        Ingest.Ends s.environment.hasZstd .server bundle.path bundle.data) := by
  rcases fetched with fault | bundle
  · rw [Remote.settles_error_iff]
    cases fault with
    | error e =>
      refine ⟨fun _ => List.mem_cons_of_mem _ List.mem_cons_self, fun hnot => absurd ?_ hnot⟩
      exact ⟨⟨e, rfl⟩, fun bundle h => by cases h⟩
    | unwritable e =>
      -- nobody is prepared for what is no error of a fetch
      refine ⟨?_, fun _ => rfl⟩
      rintro ⟨⟨e', h⟩, -⟩
      cases h
    | wrongType =>
      refine ⟨?_, fun _ => rfl⟩
      rintro ⟨⟨e', h⟩, -⟩
      cases h
  · by_cases hends : Ingest.Ends s.environment.hasZstd .server bundle.path bundle.data
    · obtain ⟨content, hcontent⟩ := takeBundle_of_ends hends
      refine ⟨fun _ => ?_, fun hnot => absurd ⟨Remote.settles_ok bundle, ?_⟩ hnot⟩
      · rw [settleFetch, hcontent]
        exact List.mem_cons_self
      · intro bundle' h
        rwa [← Except.ok.inj h]
    · refine ⟨fun h => absurd (h.2 bundle rfl) hends, fun _ => ?_⟩
      rw [settleFetch, takeBundle_of_not_ends hends]
      rfl

/-- What is looked at of a fetch, from its parameters over the replies of the log server up to the
bundle, which is to be one that can be loaded. -/
def BundleTyped (link : Remote.Link) (s : Service) (m : Members) : Prop :=
  FetchTyped m ∧ ∀ p, readFetch s.remote m = .ok p →
    let server := Remote.Server.ofAddress p.address p.token
    Remote.IsProper server link ⟨p.start, none⟩ ⟨p.stop, none⟩
      ∧ ∀ bundle, (Remote.fetch server link ⟨p.start, none⟩ ⟨p.stop, none⟩).result = .ok bundle →
        Ingest.Ends s.environment.hasZstd .server bundle.path bundle.data

theorem fetchBundle_of_read {link : Remote.Link} {p : FetchParameters}
    {trace : Remote.Trace Remote.Bundle} (h : readFetch s.remote m = .ok p)
    (htrace : Remote.fetch (Remote.Server.ofAddress p.address p.token) link ⟨p.start, none⟩
      ⟨p.stop, none⟩ = trace) :
    s.fetchBundle link m
      = ((s.settleFetch trace.result).1, trace.requests, (s.settleFetch trace.result).2) := by
  rw [fetchBundle, h]
  dsimp only
  rw [htrace]

theorem answers_fetchBundle (link : Remote.Link) (s : Service) (m : Members) :
    Answers (replyOf (s.fetchBundle link m).1) [200, 400, 502] (BundleTyped link s m) := by
  cases reads_readFetch s.remote m with
  | denied detail h htyped =>
    rw [fetchBundle, h]
    refine ⟨fun _ => List.mem_cons_of_mem _ List.mem_cons_self, fun hnot => absurd ?_ hnot⟩
    exact ⟨htyped, fun p hp => by cases h.symm.trans hp⟩
  | crashed h hnot =>
    rw [fetchBundle, h]
    exact ⟨fun htyped => absurd htyped.1 hnot, fun _ => rfl⟩
  | ok p h htyped =>
    obtain ⟨trace, htrace⟩ : ∃ trace, Remote.fetch (Remote.Server.ofAddress p.address p.token) link
        ⟨p.start, none⟩ ⟨p.stop, none⟩ = trace := ⟨_, rfl⟩
    -- with the parameters read, only the fetch and its bundle are left to be looked at
    have hiff : BundleTyped link s m
        ↔ Remote.Settles trace.result ∧ ∀ bundle, trace.result = .ok bundle →
          Ingest.Ends s.environment.hasZstd .server bundle.path bundle.data := by
      rw [← htrace, Remote.settles_fetch_iff]
      refine ⟨fun hall => hall.2 p h, fun hall => ⟨htyped, fun p' hp => ?_⟩⟩
      obtain rfl := Except.ok.inj (h.symm.trans hp)
      exact hall
    have hsettle := answers_settleFetch s trace.result
    rw [fetchBundle_of_read h htrace]
    dsimp only
    refine ⟨fun hall => ?_, fun hnot => hsettle.of_not_typed (mt hiff.mpr hnot)⟩
    have hsubset : [200, 502] ⊆ [200, 400, 502] := by decide
    exact hsubset (hsettle.of_typed (hiff.mp hall))

/-! ## Objects that are posted -/

/-- An object that is posted. -/
def posted (target : String) (m : Members) : Request := ⟨"POST", target, .json (.ok (.object m))⟩

theorem endpoint_posted (endpoint : Endpoint) {target : String}
    (h : Endpoint.ofSegments? (pathSegments target) = some endpoint)
    (hmethod : endpoint.method = "POST") : (posted target m).endpoint = .ok endpoint := by
  rw [Request.endpoint, posted, h]
  exact if_pos hmethod

variable (link : Remote.Link) (s : Service) (m : Members)

theorem reply_search :
    (s.handle link (posted "/api/search" m)).reply = replyOf ((s.search m).1.map .lines) := by
  rw [handle, endpoint_posted .search (by decide +kernel) rfl]
  rfl

theorem reply_validateQuery :
    (s.handle link (posted "/api/search/validate-query" m)).reply = replyOf (validateQuery m) := by
  rw [handle, endpoint_posted .validateQuery (by decide +kernel) rfl]
  rfl

theorem reply_fetchBundle :
    (s.handle link (posted "/api/remote-logs/fetch" m)).reply
      = replyOf (s.fetchBundle link m).1 := by
  rw [handle, endpoint_posted .fetchBundle (by decide +kernel) rfl]
  rfl

end LogSearch.Service
