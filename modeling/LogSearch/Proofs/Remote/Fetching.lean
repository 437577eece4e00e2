/-
What a fetch comes to.

The replies of the server are not trusted. `Tells` is the one shape of the first reply that leads
to the second request, and `IsTyped` says that what is looked at on the way is of the right type.
A fetch has a bundle exactly if the first reply tells where it is and the second is a success
(`fetch_eq_ok_iff`), and otherwise it ends with an error that callers are prepared for exactly if
all that it had to work with was of the right type (`settles_fetch_iff`). One part of the reply
that is not is enough to break it off, whatever the rest says.

The endpoint loads a bundle only when it has arrived, so a reply with an error leaves the service
as it is (`handle_fetchBundle_unchanged`).
-/
import LogSearch.Chain
import LogSearch.Service.Handling

set_option autoImplicit false

namespace LogSearch.Remote

open Json (Value)
open Calendar (ZonedTime)

/-- There is a result, or an error that callers are prepared for. -/
def Settles {α : Type} (result : Except Fault α) : Prop :=
  (∃ a, result = .ok a) ∨ ∃ e, result = .error (.error e)

section

variable {α : Type}

theorem settles_ok (a : α) : Settles (.ok a) :=
  .inl ⟨a, rfl⟩

theorem settles_error_iff {fault : Fault} :
    Settles (.error fault : Except Fault α) ↔ ∃ e, fault = .error e := by
  constructor
  · rintro (⟨a, h⟩ | ⟨e, h⟩)
    · cases h
    · exact ⟨e, Except.error.inj h⟩
  · rintro ⟨e, rfl⟩
    exact .inr ⟨e, rfl⟩

theorem settles_error (e : FetchError) : Settles (.error (.error e) : Except Fault α) :=
  settles_error_iff.mpr ⟨e, rfl⟩

theorem not_settles_wrongType : ¬ Settles (.error .wrongType : Except Fault α) := by
  simp [settles_error_iff]

theorem not_settles_unwritable (e : Calendar.UtcError) :
    ¬ Settles (.error (.unwritable e) : Except Fault α) := by
  simp [settles_error_iff]

/-- What is done with a reply only matters if it is a success. -/
theorem mapError_bind_eq_ok_iff {β : Type} {x : Except FetchError β} {f : β → Except Fault α}
    {a : α} :
    x.mapError Fault.error >>= f = .ok a ↔ ∃ b, x = .ok b ∧ f b = .ok a := by
  rcases x with e | b
  · refine ⟨fun h => ?_, ?_⟩
    · cases h
    · rintro ⟨b, h, -⟩
      cases h
  · refine ⟨fun h => ⟨b, rfl, h⟩, ?_⟩
    rintro ⟨b', h, hf⟩
    obtain rfl := Except.ok.inj h
    exact hf

theorem settles_mapError_bind_iff {β : Type} {x : Except FetchError β} {f : β → Except Fault α} :
    Settles (x.mapError Fault.error >>= f) ↔ ∀ b, x = .ok b → Settles (f b) := by
  rcases x with e | b
  · refine ⟨fun _ b h => ?_, fun _ => settles_error e⟩
    cases h
  · refine ⟨fun h b' hb => ?_, fun h => h b rfl⟩
    rw [← Except.ok.inj hb]
    exact h

end

/-! ## The first reply -/

/-- A member names a path, and not the empty one. -/
theorem pathOfMember_eq_ok_iff {value : Value} {path : String} :
    pathOfMember value = .ok path ↔ value = .string path ∧ path ≠ "" := by
  unfold pathOfMember
  constructor
  · intro h
    split at h
    · rename_i hgiven
      split at h
      · obtain rfl := Except.ok.inj h
        exact ⟨rfl, Value.isGiven_string.mp hgiven⟩
      · cases h
    · cases h
  · rintro ⟨rfl, hne⟩
    rw [if_pos (Value.isGiven_string.mpr hne)]

theorem settles_pathOfMember_iff {value : Value} :
    Settles (pathOfMember value) ↔ value.IsText := by
  unfold pathOfMember
  split
  · rename_i hgiven
    split
    · exact ⟨fun _ _ => ⟨_, rfl⟩, fun _ => settles_ok _⟩
    · rename_i hother
      refine ⟨fun h => absurd h not_settles_wrongType, fun h => ?_⟩
      obtain ⟨path, hpath⟩ := h hgiven
      exact absurd hpath (hother path)
  · rename_i hnot
    exact ⟨fun _ hgiven => absurd hgiven hnot, fun _ => settles_error _⟩

/-- The data names a path: it is an object with a member that does. -/
theorem pathOfData_eq_ok_iff {data : Value} {path : String} :
    pathOfData data = .ok path
      ↔ ∃ members, data = .object members
        ∧ Value.member "filePath" members = .string path ∧ path ≠ "" := by
  unfold pathOfData
  constructor
  · intro h
    split at h
    · split at h
      · exact ⟨_, rfl, pathOfMember_eq_ok_iff.mp h⟩
      · cases h
    · cases h
  · rintro ⟨members, rfl, hpath, hne⟩
    have hgiven : (Value.member "filePath" members).isGiven = true := by
      rw [hpath]
      exact Value.isGiven_string.mpr hne
    rw [if_pos (Value.isGiven_object_of_member hgiven)]
    exact pathOfMember_eq_ok_iff.mpr ⟨hpath, hne⟩

theorem settles_pathOfData_iff {data : Value} :
    Settles (pathOfData data)
      ↔ (data.isGiven = true → ∃ members, data = .object members
        ∧ (Value.member "filePath" members).IsText) := by
  unfold pathOfData
  split
  · rename_i hgiven
    split
    · rename_i members
      rw [settles_pathOfMember_iff]
      refine ⟨fun h _ => ⟨members, rfl, h⟩, fun h => ?_⟩
      obtain ⟨members', hobject, hpath⟩ := h hgiven
      obtain rfl := Value.object.inj hobject
      exact hpath
    · rename_i hother
      refine ⟨fun h => absurd h not_settles_wrongType, fun h => ?_⟩
      obtain ⟨members, hobject, -⟩ := h hgiven
      exact absurd hobject (hother members)
  · rename_i hnot
    exact ⟨fun _ hgiven => absurd hgiven hnot, fun _ => settles_error _⟩

/-- The reply says that all went well, and gives some data. -/
def Says (content data : Value) : Prop :=
  ∃ members, content = .object members ∧ Value.member "code" members = .string "0"
    ∧ Value.member "data" members = data

/-- What a reply comes to: that of its data if it says that all went well, and a refusal if not. -/
theorem pathOfReply_cases (content : Value) :
    (∃ data, Says content data ∧ pathOfReply content = pathOfData data)
      ∨ (∀ data, ¬ Says content data)
        ∧ ∃ reason, pathOfReply content = .error (.error (.refused reason)) := by
  unfold pathOfReply
  split
  · rename_i members
    split
    · rename_i hcode
      exact .inl ⟨_, ⟨members, rfl, hcode, rfl⟩, rfl⟩
    · rename_i hother
      refine .inr ⟨?_, _, rfl⟩
      rintro data ⟨members', hobject, hcode, -⟩
      obtain rfl := Value.object.inj hobject
      exact hother hcode
  · rename_i hother
    refine .inr ⟨?_, _, rfl⟩
    rintro data ⟨members, hobject, -⟩
    exact hother members hobject

theorem Says.unique {content data data' : Value} (h : Says content data)
    (h' : Says content data') : data = data' := by
  obtain ⟨members, rfl, -, rfl⟩ := h
  obtain ⟨members', hobject, -, rfl⟩ := h'
  rw [Value.object.inj hobject]

/-- The reply says that all went well, and where the bundle is. -/
def Tells (content : Value) (path : String) : Prop :=
  ∃ members, Says content (.object members)
    ∧ Value.member "filePath" members = .string path ∧ path ≠ ""

/-- What is looked at in a reply that says that all went well is of the right type, if it is
given. -/
def IsTyped (content : Value) : Prop :=
  ∀ data, Says content data → data.isGiven = true →
    ∃ members, data = .object members ∧ (Value.member "filePath" members).IsText

/-- A path is read off a reply exactly if the reply tells it. -/
theorem pathOfReply_eq_ok_iff {content : Value} {path : String} :
    pathOfReply content = .ok path ↔ Tells content path := by
  rcases pathOfReply_cases content with ⟨data, hsays, hread⟩ | ⟨hnot, reason, hread⟩
  · rw [hread, pathOfData_eq_ok_iff]
    constructor
    · rintro ⟨members, rfl, hpath⟩
      exact ⟨members, hsays, hpath⟩
    · rintro ⟨members, hsays', hpath⟩
      exact ⟨members, hsays.unique hsays', hpath⟩
  · rw [hread]
    constructor
    · intro h
      cases h
    · rintro ⟨members, hsays, -⟩
      exact absurd hsays (hnot _)

theorem settles_pathOfReply_iff {content : Value} :
    Settles (pathOfReply content) ↔ IsTyped content := by
  rcases pathOfReply_cases content with ⟨data, hsays, hread⟩ | ⟨hnot, reason, hread⟩
  · rw [hread, settles_pathOfData_iff]
    constructor
    · intro h data' hsays'
      rw [← hsays.unique hsays']
      exact h
    · intro h
      exact h data hsays
  · rw [hread]
    exact ⟨fun _ data hsays => absurd hsays (hnot data), fun _ => settles_error _⟩

/-! ## The two requests -/

theorem content_eq_ok_iff {α : Type} {phase : Phase} {reply : Reply α} {content : α} :
    reply.content phase = .ok content
      ↔ ∃ status, reply = .answer status content ∧ status < 300 := by
  rcases reply with reason | ⟨status, content'⟩
  · simp [Reply.content]
  · rw [Reply.content]
    split
    · rename_i hstatus
      simp only [reduceCtorEq, false_iff]
      rintro ⟨status', heq, hlt⟩
      obtain ⟨rfl, -⟩ := Reply.answer.inj heq
      omega
    · rename_i hstatus
      constructor
      · intro h
        obtain rfl := Except.ok.inj h
        exact ⟨status, rfl, by omega⟩
      · rintro ⟨status', heq, -⟩
        rw [(Reply.answer.inj heq).2]

variable {server : Server} {link : Link} {start stop : ZonedTime}

/-- A time can be written for the server if it has a place in UTC. -/
theorem exists_forServer_iff {t : ZonedTime} :
    (∃ text, t.forServer = .ok text) ↔ ∃ utc, t.utc = .ok utc := by
  rw [ZonedTime.forServer]
  cases t.utc <;> simp [bind, Except.bind, pure, Except.pure]

theorem exists_prepareRequest_iff :
    (∃ request, prepareRequest server start stop = .ok request)
      ↔ (∃ utc, start.utc = .ok utc) ∧ ∃ utc, stop.utc = .ok utc := by
  rw [← exists_forServer_iff, ← exists_forServer_iff, prepareRequest]
  cases start.forServer <;> cases stop.forServer <;>
    simp [bind, Except.bind, pure, Except.pure]

/-- The server has a bundle prepared, and tells where it is. -/
def IsTold (server : Server) (link : Link) (start stop : ZonedTime) (path : String) : Prop :=
  ∃ request status content, prepareRequest server start stop = .ok request
    ∧ link.prepare request = .answer status (some content) ∧ status < 300 ∧ Tells content path

/-- The bounds can be written for the server, and what it replies, if that is a success, is JSON
and of the right type. -/
structure CanAsk (server : Server) (link : Link) (start stop : ZonedTime) : Prop where
  writesStart : ∃ utc, start.utc = .ok utc
  writesStop : ∃ utc, stop.utc = .ok utc
  reads : ∀ request status content, prepareRequest server start stop = .ok request →
    link.prepare request = .answer status content → status < 300 →
      ∃ value, content = some value ∧ IsTyped value

/-- Without a request nothing is told, and a request cannot be made only for want of a bound in
UTC. -/
theorem prepare_of_unwritable (link : Link) {e : Calendar.UtcError}
    (h : prepareRequest server start stop = .error e) :
    (prepare server link start stop).result = .error (.unwritable e)
      ∧ (∀ path, ¬ IsTold server link start stop path) ∧ ¬ CanAsk server link start stop := by
  refine ⟨by rw [prepare, h], ?_, ?_⟩
  · rintro path ⟨request, -, -, hrequest, -⟩
    rw [h] at hrequest
    cases hrequest
  · intro hcan
    obtain ⟨request, hrequest⟩ := exists_prepareRequest_iff.mpr ⟨hcan.writesStart, hcan.writesStop⟩
    rw [h] at hrequest
    cases hrequest

theorem prepare_of_request {request : Request}
    (h : prepareRequest server start stop = .ok request) :
    prepare server link start stop
      = ⟨[request], ((link.prepare request).content .prepare).mapError .error >>= pathOfBody⟩ := by
  rw [prepare, h]

theorem isTold_iff {request : Request} (h : prepareRequest server start stop = .ok request)
    {path : String} :
    IsTold server link start stop path
      ↔ ∃ content, (link.prepare request).content .prepare = .ok (some content)
        ∧ Tells content path := by
  simp only [content_eq_ok_iff]
  constructor
  · rintro ⟨request', status, content, hrequest, hreply, hlt, htells⟩
    obtain rfl := Except.ok.inj (h.symm.trans hrequest)
    exact ⟨content, ⟨status, hreply, hlt⟩, htells⟩
  · rintro ⟨content, ⟨status, hreply, hlt⟩, htells⟩
    exact ⟨request, status, content, h, hreply, hlt, htells⟩

theorem canAsk_iff {request : Request} (h : prepareRequest server start stop = .ok request) :
    CanAsk server link start stop
      ↔ ∀ content, (link.prepare request).content .prepare = .ok content →
        ∃ value, content = some value ∧ IsTyped value := by
  simp only [content_eq_ok_iff]
  constructor
  · rintro hcan content ⟨status, hreply, hlt⟩
    exact hcan.reads request status content h hreply hlt
  · intro hreads
    obtain ⟨hstart, hstop⟩ := exists_prepareRequest_iff.mp ⟨request, h⟩
    refine ⟨hstart, hstop, fun request' status content hrequest hreply hlt => ?_⟩
    obtain rfl := Except.ok.inj (h.symm.trans hrequest)
    exact hreads content ⟨status, hreply, hlt⟩

theorem pathOfBody_eq_ok_iff {body : Option Value} {path : String} :
    pathOfBody body = .ok path ↔ ∃ content, body = some content ∧ Tells content path := by
  cases body with
  | none => simp [pathOfBody]
  | some content => simp [pathOfBody, pathOfReply_eq_ok_iff]

theorem settles_pathOfBody_iff {body : Option Value} :
    Settles (pathOfBody body) ↔ ∃ content, body = some content ∧ IsTyped content := by
  cases body with
  | none => simp [pathOfBody, not_settles_wrongType]
  | some content => simp [pathOfBody, settles_pathOfReply_iff]

theorem prepare_eq_ok_iff {path : String} :
    (prepare server link start stop).result = .ok path ↔ IsTold server link start stop path := by
  rcases hrequest : prepareRequest server start stop with e | request
  · obtain ⟨hresult, hnot, -⟩ := prepare_of_unwritable link hrequest
    rw [hresult]
    exact iff_of_false (fun h => by cases h) (hnot path)
  · rw [prepare_of_request hrequest, isTold_iff hrequest, mapError_bind_eq_ok_iff]
    constructor
    · rintro ⟨body, hbody, hread⟩
      obtain ⟨content, rfl, htells⟩ := pathOfBody_eq_ok_iff.mp hread
      exact ⟨content, hbody, htells⟩
    · rintro ⟨content, hbody, htells⟩
      exact ⟨some content, hbody, pathOfBody_eq_ok_iff.mpr ⟨content, rfl, htells⟩⟩

theorem settles_prepare_iff :
    Settles (prepare server link start stop).result ↔ CanAsk server link start stop := by
  rcases hrequest : prepareRequest server start stop with e | request
  · obtain ⟨hresult, -, hnot⟩ := prepare_of_unwritable link hrequest
    rw [hresult]
    exact iff_of_false (not_settles_unwritable e) hnot
  · rw [prepare_of_request hrequest, canAsk_iff hrequest, settles_mapError_bind_iff]
    simp only [settles_pathOfBody_iff]

/-! ## The whole fetch -/

/-- The bounds can be compared, the first does not lie behind the second, and the server tells
where the bundle is. -/
structure Prepares (server : Server) (link : Link) (start stop : ZonedTime) (path : String) :
    Prop where
  comparable : start.offset.isSome = stop.offset.isSome
  inOrder : start.utcMicros ≤ stop.utcMicros
  told : IsTold server link start stop path

/-- The bounds can be compared, and if they are in order, the server can be asked. -/
structure IsProper (server : Server) (link : Link) (start stop : ZonedTime) : Prop where
  comparable : start.offset.isSome = stop.offset.isSome
  canAsk : start.utcMicros ≤ stop.utcMicros → CanAsk server link start stop

/-- **The ways that a fetch can go.** -/
theorem fetch_cases (server : Server) (link : Link) (start stop : ZonedTime) :
    (start.offset.isSome ≠ stop.offset.isSome
        ∧ fetch server link start stop = ⟨[], .error .wrongType⟩)
      ∨ start.offset.isSome = stop.offset.isSome
        ∧ ((stop.utcMicros < start.utcMicros
            ∧ fetch server link start stop = ⟨[], .error (.error .reversed)⟩)
          ∨ start.utcMicros ≤ stop.utcMicros
            ∧ ((∃ e, (prepare server link start stop).result = .error e
                ∧ fetch server link start stop
                  = ⟨(prepare server link start stop).requests, .error e⟩)
              ∨ ∃ path, (prepare server link start stop).result = .ok path
                ∧ fetch server link start stop
                  = ⟨(prepare server link start stop).requests ++ [downloadRequest server path],
                    ((link.download (downloadRequest server path)).content .download).mapError
                      .error >>= fun data => .ok ⟨path, data⟩⟩)) := by
  rw [fetch]
  -- the cases are the checks in their order, and then what preparing comes to
  by_cases hcomparable : start.offset.isSome = stop.offset.isSome
  · rw [if_neg (not_not_intro hcomparable)]
    refine .inr ⟨hcomparable, ?_⟩
    by_cases hreversed : stop.utcMicros < start.utcMicros
    · exact .inl ⟨hreversed, if_pos hreversed⟩
    · rw [if_neg hreversed]
      refine .inr ⟨Int.not_lt.mp hreversed, ?_⟩
      dsimp only
      rcases (prepare server link start stop).result with e | path
      · exact .inl ⟨e, rfl, rfl⟩
      · refine .inr ⟨path, rfl, ?_⟩
        dsimp only [download]
        cases (link.download (downloadRequest server path)).content .download <;> rfl
  · exact .inl ⟨hcomparable, if_pos hcomparable⟩

/-- **A fetch ends as callers expect** exactly if nothing that it works with is of the wrong
type. -/
theorem settles_fetch_iff :
    Settles (fetch server link start stop).result ↔ IsProper server link start stop := by
  rcases fetch_cases server link start stop with ⟨hnot, hfetch⟩ | ⟨hcomparable, hcases⟩
  · rw [hfetch]
    exact iff_of_false not_settles_wrongType fun h => hnot h.comparable
  rcases hcases with ⟨hreversed, hfetch⟩ | ⟨horder, hcases⟩
  · rw [hfetch]
    exact iff_of_true (settles_error _)
      ⟨hcomparable, fun horder => absurd hreversed (Int.not_lt.mpr horder)⟩
  -- in order, all depends on what comes of the first request: the second one always settles
  have hproper : IsProper server link start stop
      ↔ Settles (prepare server link start stop).result := by
    rw [settles_prepare_iff]
    exact ⟨fun h => h.canAsk horder, fun h => ⟨hcomparable, fun _ => h⟩⟩
  rcases hcases with ⟨e, hprepare, hfetch⟩ | ⟨path, hprepare, hfetch⟩
  · rw [hproper, hprepare, hfetch, settles_error_iff, settles_error_iff]
  · rw [hproper, hprepare, hfetch, settles_mapError_bind_iff]
    exact iff_of_true (fun data _ => settles_ok _) (settles_ok path)

theorem Prepares.unique {path path' : String} (h : Prepares server link start stop path)
    (h' : Prepares server link start stop path') : path = path' := by
  have hpath := prepare_eq_ok_iff.mpr h.told
  rw [prepare_eq_ok_iff.mpr h'.told] at hpath
  exact (Except.ok.inj hpath).symm

/-- With a path comes the second request. -/
theorem fetch_of_prepares {path : String} (h : Prepares server link start stop path) :
    fetch server link start stop
      = ⟨(prepare server link start stop).requests ++ [downloadRequest server path],
        ((link.download (downloadRequest server path)).content .download).mapError .error
          >>= fun data => .ok ⟨path, data⟩⟩ := by
  have hprepare := prepare_eq_ok_iff.mpr h.told
  rcases fetch_cases server link start stop with
    ⟨hnot, -⟩ | ⟨-, ⟨hreversed, -⟩ | ⟨-, ⟨e, hfail, -⟩ | ⟨path', hpath, hfetch⟩⟩⟩
  · exact absurd h.comparable hnot
  · exact absurd hreversed (Int.not_lt.mpr h.inOrder)
  · rw [hfail] at hprepare
    cases hprepare
  · rw [hpath] at hprepare
    obtain rfl := Except.ok.inj hprepare
    exact hfetch

/-- The first request asks for something to be done. -/
theorem get_not_mem_requests_prepare (url : String) :
    Request.get url ∉ (prepare server link start stop).requests := by
  rcases hrequest : prepareRequest server start stop with e | request
  · rw [prepare, hrequest]
    exact List.not_mem_nil
  · rw [prepare_of_request hrequest, List.mem_singleton]
    rw [prepareRequest] at hrequest
    obtain ⟨first, -, hrequest⟩ := exists_of_bind_eq_ok hrequest
    obtain ⟨last, -, hrequest⟩ := exists_of_bind_eq_ok hrequest
    rw [← Except.ok.inj hrequest]
    exact Request.noConfusion

/-- Without a path there is no second request, and no bundle. -/
theorem fetch_of_not_prepares (h : ¬ ∃ path, Prepares server link start stop path) :
    (∃ fault, (fetch server link start stop).result = .error fault)
      ∧ ∀ url, .get url ∉ (fetch server link start stop).requests := by
  rcases fetch_cases server link start stop with
    ⟨-, hfetch⟩ | ⟨hcomparable, ⟨-, hfetch⟩ | ⟨horder, ⟨e, -, hfetch⟩ | ⟨path, hpath, -⟩⟩⟩
  · rw [hfetch]
    exact ⟨⟨_, rfl⟩, fun url => List.not_mem_nil⟩
  · rw [hfetch]
    exact ⟨⟨_, rfl⟩, fun url => List.not_mem_nil⟩
  · rw [hfetch]
    exact ⟨⟨_, rfl⟩, get_not_mem_requests_prepare⟩
  · exact absurd ⟨path, hcomparable, horder, prepare_eq_ok_iff.mp hpath⟩ h

/-- **When there is a bundle.** -/
theorem fetch_eq_ok_iff {bundle : Bundle} :
    (fetch server link start stop).result = .ok bundle
      ↔ Prepares server link start stop bundle.path
        ∧ ∃ status, link.download (downloadRequest server bundle.path)
            = .answer status bundle.data ∧ status < 300 := by
  by_cases h : ∃ path, Prepares server link start stop path
  · obtain ⟨path, hpath⟩ := h
    rw [fetch_of_prepares hpath, mapError_bind_eq_ok_iff]
    simp only [content_eq_ok_iff]
    constructor
    · rintro ⟨data, hdownload, heq⟩
      obtain rfl := Except.ok.inj heq
      exact ⟨hpath, hdownload⟩
    · rintro ⟨hprepares, hdownload⟩
      obtain rfl := hpath.unique hprepares
      exact ⟨bundle.data, hdownload, rfl⟩
  · obtain ⟨⟨fault, hfault⟩, -⟩ := fetch_of_not_prepares h
    rw [hfault]
    refine iff_of_false ?_ ?_
    · intro hok
      cases hok
    · intro hbundle
      exact h ⟨_, hbundle.1⟩

/-- **What is downloaded** is what the server has told, and it is not asked for before. -/
theorem get_mem_requests_iff {url : String} :
    .get url ∈ (fetch server link start stop).requests
      ↔ ∃ path, Prepares server link start stop path ∧ .get url = downloadRequest server path := by
  by_cases h : ∃ path, Prepares server link start stop path
  · obtain ⟨path, hpath⟩ := h
    -- only the second of the two requests can be a download
    rw [fetch_of_prepares hpath, List.mem_append, List.mem_singleton,
      or_iff_right (get_not_mem_requests_prepare url)]
    constructor
    · intro hurl
      exact ⟨path, hpath, hurl⟩
    · rintro ⟨path', hpath', hurl⟩
      obtain rfl := hpath.unique hpath'
      exact hurl
  · refine iff_of_false ((fetch_of_not_prepares h).2 url) ?_
    rintro ⟨path, hpath, -⟩
    exact h ⟨path, hpath⟩

end LogSearch.Remote

namespace LogSearch.Service

variable {s : Service} {link : Remote.Link}

/-! ## The endpoint -/

theorem takeBundle_unchanged {bundle : Remote.Bundle} {refusal : Refusal}
    (h : (s.takeBundle bundle).1 = .error refusal) : (s.takeBundle bundle).2 = s := by
  rw [takeBundle] at h ⊢
  split at h
  · rfl
  · cases h

theorem settleFetch_unchanged {fetched : Except Remote.Fault Remote.Bundle} {refusal : Refusal}
    (h : (s.settleFetch fetched).1 = .error refusal) : (s.settleFetch fetched).2 = s := by
  rcases fetched with fault | bundle
  · cases fault <;> rfl
  · exact takeBundle_unchanged h

theorem fetchBundle_unchanged {m : Members} {refusal : Refusal} {requests : List Remote.Request}
    {after : Service} (h : s.fetchBundle link m = (.error refusal, requests, after)) :
    after = s := by
  rw [fetchBundle] at h
  cases hread : readFetch s.remote m with
  | error refusal =>
    rw [hread] at h
    cases h
    rfl
  | ok p =>
    rw [hread] at h
    obtain ⟨hresult, hrest⟩ := Prod.mk.inj h
    obtain ⟨-, rfl⟩ := Prod.mk.inj hrest
    exact settleFetch_unchanged hresult

/-- A fetch that is answered with an error leaves the service as it is. -/
theorem handle_fetchBundle_unchanged {r : Request} (h : r.endpoint = .ok .fetchBundle)
    (hstatus : (s.handle link r).reply.status ≠ 200) : (s.handle link r).service = s := by
  rw [handle, h] at hstatus ⊢
  dsimp only [handleAt] at hstatus ⊢
  cases hmembers : r.body.members with
  | error refusal => rfl
  | ok m =>
    rw [hmembers] at hstatus
    dsimp only at hstatus ⊢
    rcases hfetch : s.fetchBundle link m with ⟨result, requests, after⟩
    rw [hfetch] at hstatus
    cases result with
    | error refusal => exact fetchBundle_unchanged hfetch
    | ok content => exact absurd rfl hstatus

end LogSearch.Service

namespace LogSearch.Remote

open Calendar (ZonedTime)

end LogSearch.Remote
