import Iris.AdminRpc
import Mathlib.Data.List.Perm.Basic

/-!
# The history of the admin server

A handler takes several statements, and requests arrive meanwhile. To its clients the server is a
single register all the same: each request served reads or replaces the identity at one instant.

* `Obtained`, `Answers`, `History`: the register, and what it answers;
* `Called`: how far a handler has come, by the calls it has made;
* `Did`, `did_of_step`: what a step of the server can do;
* `Sound`, `sound_of_run`: the handler on the thread has found the identity that is there, and the
  keypair it holds is the one it was given;
* `Told`, `allTold_step`: what a handler was told is what the run says;
* **`served_atomically`**: what is served is a history of the register, of the requests that came.
-/

namespace Iris

namespace AdminServer

variable {χ : Type} (lib : KeypairLib χ)

/-! ## The register -/

/-- The request has obtained the keypair: the one that `read_from_file` has returned to it, or the
one of its bytes. -/
def Obtained : AdminRequest → Option (Except String χ) → χ → Prop
  | .setIdentity _, file, keypair => file = some (.ok keypair)
  | .setIdentityFromBytes bytes, file, keypair => file = none ∧ lib.tryFrom bytes = .ok keypair
  | .getIdentity, _, _ => False

/-- An answer of the register that holds `key`, given what the request was told by the calls it
made, and what the register holds then. -/
inductive Answers (key : Pubkey) :
    AdminRequest → AdminCalls χ → Option Pubkey → Except ErrorObject (Option Text) → Pubkey → Prop
  | get : Answers key .getIdentity ⟨none, none⟩ none (.ok (some key.toText)) key
  | set (request : AdminRequest) (file : Option (Except String χ)) (keypair : χ)
      (h : Obtained lib request file keypair) :
      Answers key request ⟨file, some (.ok ())⟩ (some (lib.pubkey keypair)) (.ok none)
        (lib.pubkey keypair)
  | unread (path : Text) (e : String) :
      Answers key (.setIdentity path) ⟨some (.error e), none⟩ none
        (.error (invalidRequest ("Failed to read keypair: " ++ e))) key
  | unparsed (bytes : Octets) (e : String) (h : lib.tryFrom bytes = .error e) :
      Answers key (.setIdentityFromBytes bytes) ⟨none, none⟩ none
        (.error (invalidRequest ("Failed to parse keypair: " ++ e))) key
  | refused (request : AdminRequest) (file : Option (Except String χ)) (keypair : χ)
      (h : Obtained lib request file keypair) (e : String) :
      Answers key request ⟨file, some (.error e)⟩ none
        (.error (invalidRequest ("Failed to update identity: " ++ e))) key

/-- The requests one after the other take the register from one identity to another. -/
inductive History (key : Pubkey) : List (Served χ) → Pubkey → Prop
  | nil : History key [] key
  | concat (served : List (Served χ)) (now : Pubkey) (request : AdminRequest)
      (calls : AdminCalls χ) (installed : Option Pubkey)
      (reply : Except ErrorObject (Option Text)) (next : Pubkey) (hserved : History key served now)
      (h : Answers lib now request calls installed reply next) :
      History key (served ++ [⟨request, ⟨now, now⟩, calls, installed, reply⟩]) next

/-! ## Steps -/

/-- Where a handler is, it has made the calls before, and holds the keypair it has obtained. -/
def Called (task : AdminTask χ) : Prop :=
  match task.phase with
  | .start => task.calls = ⟨none, none⟩
  | .update keypair => Obtained lib task.request task.calls.file keypair ∧ task.calls.update = none
  | .store keypair =>
    Obtained lib task.request task.calls.file keypair ∧ task.calls.update = some (.ok ())

/-- The calls of a handler after a statement that made none, or one with this result. -/
inductive Returned (task : AdminTask χ) (file : Except String χ) (update : Except String Unit) :
    AdminCalls χ → Prop
  | neither : Returned task file update task.calls
  | read : Returned task file update (task.hasRead file).calls
  | updated : Returned task file update (task.hasUpdated update).calls

/-- All that a step can do. -/
inductive Did (s : AdminServer χ) : AdminEvent χ → AdminServer χ → Prop
  | arrived (request : AdminRequest) :
      Did s (.request request) { s with pending := s.pending ++ [request] }
  | polled (i : ℕ) (request : AdminRequest) (hfree : s.running = none)
      (hi : s.pending[i]? = some request) :
      Did s (.poll i)
        { s with
          pending := s.pending.eraseIdx i
          running := some ⟨request, .start, s.identities, ⟨none, none⟩⟩ }
  | moved (file : Except String χ) (update : Except String Unit) (task task' : AdminTask χ)
      (client : Pubkey) (htask : s.running = some task) (hrequest : task'.request = task.request)
      (hfound : task'.found = task.found) (hcalls : Returned task file update task'.calls)
      (hcalled : Called lib task → Called lib task') :
      Did s (.run file update) { s with client, running := some task' }
  | answered (file : Except String χ) (update : Except String Unit) (task task' : AdminTask χ)
      (reply : Except ErrorObject (Option Text)) (htask : s.running = some task)
      (hrequest : task'.request = task.request) (hfound : task'.found = task.found)
      (hcalls : Returned task file update task'.calls)
      (hreply : Called lib task →
        Answers lib s.identity task'.request task'.calls none reply s.identity) :
      Did s (.run file update) (s.finish task' none reply)
  | stored (file : Except String χ) (update : Except String Unit) (task : AdminTask χ)
      (keypair : χ) (htask : s.running = some task) (hphase : task.phase = .store keypair) :
      Did s (.run file update)
        ({ s with identity := lib.pubkey keypair }.finish task (some (lib.pubkey keypair))
          (.ok none))

theorem did_of_statement {s : AdminServer χ} {task : AdminTask χ} (htask : s.running = some task)
    (file : Except String χ) (update : Except String Unit) :
    Did lib s (.run file update) (s.statement lib task file update) := by
  obtain ⟨request, phase, found, calls⟩ := task
  cases phase with
  | start =>
    cases request with
    | setIdentity path =>
      cases file with
      | ok keypair =>
        refine .moved _ update _ _ s.client htask rfl rfl .read fun hcalls => ⟨rfl, ?_⟩
        exact congrArg AdminCalls.update hcalls
      | error e =>
        refine .answered _ update _ _ _ htask rfl rfl .read fun hcalls => ?_
        cases hcalls
        exact .unread path e
    | setIdentityFromBytes bytes =>
      simp only [statement]
      cases hbytes : lib.tryFrom bytes with
      | ok keypair =>
        refine .moved file update _ _ s.client htask rfl rfl .neither fun hcalls => ?_
        cases hcalls
        exact ⟨⟨rfl, hbytes⟩, rfl⟩
      | error e =>
        refine .answered file update _ _ _ htask rfl rfl .neither fun hcalls => ?_
        cases hcalls
        exact .unparsed bytes e hbytes
    | getIdentity =>
      refine .answered file update _ _ _ htask rfl rfl .neither fun hcalls => ?_
      cases hcalls
      exact .get
  | update keypair =>
    cases update with
    | ok => exact .moved file _ _ _ _ htask rfl rfl .updated fun hcalled => ⟨hcalled.1, rfl⟩
    | error e =>
      refine .answered file _ _ _ _ htask rfl rfl .updated fun hcalled => ?_
      exact .refused request _ keypair hcalled.1 e
  | store keypair => exact .stored file update _ keypair htask rfl

theorem did_of_step {s s' : AdminServer χ} {e : AdminEvent χ} (h : step lib s e = some s') :
    Did lib s e s' := by
  cases e with
  | request request =>
    cases h
    exact .arrived request
  | poll i =>
    simp only [step] at h
    split at h
    · rename_i request hfree hi
      cases h
      exact .polled i request hfree hi
    · cases h
  | run file update =>
    obtain ⟨task, htask, rfl⟩ := Option.map_eq_some_iff.mp h
    exact did_of_statement lib htask file update

/-! ## The handler on the thread -/

/-- What holds of the handler on the thread. -/
structure Sound (s : AdminServer χ) : Prop where
  found : ∀ task, s.running = some task → task.found = ⟨s.identity, s.identity⟩
  called : ∀ task, s.running = some task → Called lib task

theorem sound_of_free {s : AdminServer χ} (hfree : s.running = none) : Sound lib s :=
  ⟨fun task htask => by simp [hfree] at htask, fun task htask => by simp [hfree] at htask⟩

theorem sound_of_running {s : AdminServer χ} {task : AdminTask χ} (htask : s.running = some task)
    (hfound : task.found = ⟨s.identity, s.identity⟩) (hcalled : Called lib task) :
    Sound lib s := by
  refine ⟨fun task' htask' => ?_, fun task' htask' => ?_⟩ <;>
    obtain rfl := Option.some.inj (htask.symm.trans htask')
  · exact hfound
  · exact hcalled

/-- **One step.** -/
theorem sound_step {initial : Pubkey} {s s' : AdminServer χ} {e : AdminEvent χ}
    (hagrees : Agrees lib initial s) (hs : Sound lib s) (h : step lib s e = some s') :
    Sound lib s' := by
  cases did_of_step lib h with
  | arrived request => exact ⟨hs.found, hs.called⟩
  | polled i request hfree =>
    refine sound_of_running lib rfl ?_ rfl
    rw [identities, hagrees.idle hfree]
  | moved file update task task' client htask hrequest hfound hcalls hcalled =>
    exact sound_of_running lib rfl (hfound.trans (hs.found task htask))
      (hcalled (hs.called task htask))
  | answered | stored => exact sound_of_free lib rfl

theorem sound_of_run {identityKeypair : χ} {es : List (AdminEvent χ)} {s : AdminServer χ}
    (hrun : Lts.runFrom (step lib) (init lib identityKeypair) es = some s) :
    Agrees lib (lib.pubkey identityKeypair) s ∧ Sound lib s := by
  have hstep : ∀ s e s', Agrees lib (lib.pubkey identityKeypair) s ∧ Sound lib s →
      step lib s e = some s' → Agrees lib (lib.pubkey identityKeypair) s' ∧ Sound lib s' :=
    fun s e s' hs h => ⟨agrees_step lib s e s' hs.1 h, sound_step lib hs.1 hs.2 h⟩
  exact Lts.runFrom_invariant hstep ⟨agrees_init lib identityKeypair, sound_of_free lib rfl⟩ hrun

/-! ## The calls -/

variable {lib}

/-- What the calls have returned is what the run says. -/
structure Told (es : List (AdminEvent χ)) (calls : AdminCalls χ) : Prop where
  file : ∀ file, calls.file = some file → ∃ update, .run file update ∈ es
  update : ∀ update, calls.update = some update → ∃ file, .run file update ∈ es

theorem Told.concat {es : List (AdminEvent χ)} {calls : AdminCalls χ} (h : Told es calls)
    (e : AdminEvent χ) : Told (es ++ [e]) calls where
  file := fun file hfile => (h.file file hfile).imp fun _ => List.mem_append_left [e]
  update := fun update hupdate => (h.update update hupdate).imp fun _ => List.mem_append_left [e]

theorem Told.returned {es : List (AdminEvent χ)} {task : AdminTask χ} (h : Told es task.calls)
    {file : Except String χ} {update : Except String Unit} {calls : AdminCalls χ}
    (hcalls : Returned task file update calls) : Told (es ++ [.run file update]) calls := by
  have hlast : AdminEvent.run file update ∈ es ++ [.run file update] := by simp
  have hkept := h.concat (.run file update)
  cases hcalls with
  | neither => exact hkept
  | read => exact ⟨fun _ hfile => ⟨update, Option.some.inj hfile ▸ hlast⟩, hkept.update⟩
  | updated => exact ⟨hkept.file, fun _ hupdate => ⟨file, Option.some.inj hupdate ▸ hlast⟩⟩

/-- The calls of every request served and of the handler on the thread. -/
structure AllTold (es : List (AdminEvent χ)) (s : AdminServer χ) : Prop where
  served : ∀ request ∈ s.served, Told es request.calls
  running : ∀ task, s.running = some task → Told es task.calls

theorem allTold_init (identityKeypair : χ) : AllTold [] (init lib identityKeypair) where
  served := fun _ hrequest => (List.not_mem_nil hrequest).elim
  running := fun _ htask => (Option.some_ne_none _ htask.symm).elim

theorem AllTold.finish {es : List (AdminEvent χ)} {s : AdminServer χ} {task : AdminTask χ}
    (hs : ∀ request ∈ s.served, Told es request.calls) (htask : Told es task.calls)
    (identity : Pubkey) (installed : Option Pubkey) (reply : Except ErrorObject (Option Text)) :
    AllTold es ({ s with identity }.finish task installed reply) where
  served := fun request hrequest => by
    rcases List.mem_append.mp hrequest with hold | hnew
    · exact hs request hold
    · rw [List.mem_singleton.mp hnew]
      exact htask
  running := nofun

/-- **One step.** -/
theorem allTold_step (es : List (AdminEvent χ)) (s : AdminServer χ) (e : AdminEvent χ)
    (s' : AdminServer χ) (hs : AllTold es s) (h : step lib s e = some s') :
    AllTold (es ++ [e]) s' := by
  have hserved : ∀ request ∈ s.served, Told (es ++ [e]) request.calls :=
    fun request hrequest => (hs.served request hrequest).concat e
  cases did_of_step lib h with
  | arrived request => exact ⟨hserved, fun task htask => (hs.running task htask).concat _⟩
  | polled i request hfree hi =>
    refine ⟨hserved, fun task htask => ?_⟩
    cases htask
    exact ⟨nofun, nofun⟩
  | moved file update task task' client htask hrequest hfound hcalls =>
    refine ⟨hserved, fun task'' htask'' => ?_⟩
    cases htask''
    exact (hs.running task htask).returned hcalls
  | answered file update task task' reply htask hrequest hfound hcalls =>
    exact .finish hserved ((hs.running task htask).returned hcalls) s.identity _ _
  | stored file update task keypair htask =>
    exact .finish hserved ((hs.running task htask).concat _) (lib.pubkey keypair) _ _

/-! ## The requests served -/

/-- The requests that have come and have no reply. -/
def outstanding (s : AdminServer χ) : List AdminRequest :=
  (s.running.map AdminTask.request).toList ++ s.pending

/-- The requests that come. -/
def requests (es : List (AdminEvent χ)) : List AdminRequest :=
  es.filterMap fun
    | .request request => some request
    | _ => none

/-- From `t` to `s`: what has been served meanwhile is a history of the register, and what has come
is served or outstanding. -/
structure Continues (lib : KeypairLib χ) (t : AdminServer χ) (es : List (AdminEvent χ)) (s : AdminServer χ)
    (later : List (Served χ)) : Prop where
  served : s.served = t.served ++ later
  history : History lib t.identity later s.identity
  requests : (later.map Served.request ++ s.outstanding).Perm (t.outstanding ++ requests es)

theorem requests_concat_run (es : List (AdminEvent χ)) (e : AdminEvent χ)
    (he : ∀ request, e ≠ .request request) : requests (es ++ [e]) = requests es := by
  rw [requests, List.filterMap_append]
  cases e with
  | request request => exact absurd rfl (he request)
  | _ => exact List.append_nil _

/-- The thread is taken by the same request, or by none. -/
theorem Continues.unserved {t s s' : AdminServer χ} {es : List (AdminEvent χ)} {later : List (Served χ)}
    {e : AdminEvent χ} (hs : Continues lib t es s later) (he : ∀ request, e ≠ .request request)
    (hserved : s'.served = s.served) (hidentity : s'.identity = s.identity)
    (hout : s'.outstanding.Perm s.outstanding) : Continues lib t (es ++ [e]) s' later where
  served := hserved.trans hs.served
  history := hidentity ▸ hs.history
  requests := by
    rw [requests_concat_run es e he]
    exact (hout.append_left _).trans hs.requests

/-- A request is served. -/
theorem Continues.finish {t s : AdminServer χ} {es : List (AdminEvent χ)} {later : List (Served χ)}
    {e : AdminEvent χ} (hs : Continues lib t es s later) (he : ∀ request, e ≠ .request request)
    {task task' : AdminTask χ} (htask : s.running = some task)
    (hrequest : task'.request = task.request) (hfound : task'.found = ⟨s.identity, s.identity⟩)
    {installed : Option Pubkey} {reply : Except ErrorObject (Option Text)} {next : Pubkey}
    (h : Answers lib s.identity task'.request task'.calls installed reply next) :
    ∃ later', Continues lib t (es ++ [e]) ({ s with identity := next }.finish task' installed reply)
      later' := by
  refine ⟨later ++ [⟨task'.request, task'.found, task'.calls, installed, reply⟩], ?_, ?_, ?_⟩
  · show s.served ++ _ = _
    rw [hs.served, List.append_assoc]
  · rw [hfound]
    exact .concat later s.identity task'.request task'.calls installed reply next hs.history h
  · have hout : s.outstanding = task'.request :: s.pending := by
      rw [outstanding, htask, hrequest]
      rfl
    have hrequests := hs.requests
    rw [hout] at hrequests
    rw [requests_concat_run es e he, List.map_append, List.append_assoc]
    exact hrequests

/-- **One step.** -/
theorem continues_step {t s s' : AdminServer χ} {es : List (AdminEvent χ)}
    {later : List (Served χ)} {e : AdminEvent χ} (hsound : Sound lib s)
    (hs : Continues lib t es s later) (h : step lib s e = some s') :
    ∃ later', Continues lib t (es ++ [e]) s' later' := by
  cases did_of_step lib h with
  | arrived request =>
    refine ⟨later, hs.served, hs.history, ?_⟩
    have hout : outstanding { s with pending := s.pending ++ [request] } =
        s.outstanding ++ [request] := (List.append_assoc _ _ _).symm
    have hrequests : requests (es ++ [.request request]) = requests es ++ [request] :=
      List.filterMap_append
    rw [hout, hrequests, ← List.append_assoc, ← List.append_assoc]
    exact hs.requests.append_right [request]
  | polled i request hfree hi =>
    refine ⟨later, hs.unserved (by simp) rfl rfl ?_⟩
    obtain ⟨hlt, rfl⟩ := List.getElem?_eq_some_iff.mp hi
    have hout : s.outstanding = s.pending := by
      rw [outstanding, hfree]
      rfl
    rw [hout]
    exact List.getElem_cons_eraseIdx_perm hlt
  | moved file update task task' client htask hrequest =>
    refine ⟨later, hs.unserved (by simp) rfl rfl (.of_eq ?_)⟩
    rw [outstanding, outstanding, htask]
    exact congrArg (· :: s.pending) hrequest
  | answered file update task task' reply htask hrequest hfound hcalls hreply =>
    exact hs.finish (by simp) htask hrequest (hfound.trans (hsound.found task htask))
      (hreply (hsound.called task htask))
  | stored file update task keypair htask hphase =>
    obtain ⟨request, phase, found, file, called⟩ := task
    cases hphase
    obtain ⟨hobtained, hupdate⟩ := hsound.called _ htask
    cases hupdate
    exact hs.finish (by simp) htask rfl (hsound.found _ htask) (.set request file keypair hobtained)

variable (lib) in
/-- **One request at a time.** From any state that the server reaches: the requests that it serves
from there on are, in the order of their replies, a history of one register that starts with the
identity reported then and ends with the one reported last; what they were told by the calls they
made is what the run says; and each of them has come and is answered once. -/
theorem served_atomically {identityKeypair : χ} {es fs : List (AdminEvent χ)} {t s : AdminServer χ}
    (hrun : Lts.runFrom (step lib) (init lib identityKeypair) es = some t)
    (hlater : Lts.runFrom (step lib) t fs = some s) :
    ∃ later, s.served = t.served ++ later ∧ History lib t.identity later s.identity ∧
      (∀ request ∈ later, Told (es ++ fs) request.calls) ∧
      (later.map Served.request ++ s.outstanding).Perm (t.outstanding ++ requests fs) := by
  have ht := sound_of_run lib hrun
  have hstart : Continues lib t [] t [] :=
    ⟨(List.append_nil _).symm, .nil, .of_eq (List.append_nil _).symm⟩
  obtain ⟨-, -, later, hs⟩ := Lts.runFrom_history (R := fun fs s =>
    Agrees lib (lib.pubkey identityKeypair) s ∧ Sound lib s ∧ ∃ later, Continues lib t fs s later)
    (fun fs u e u' ⟨hagrees, hsound, later, hu⟩ h => ⟨agrees_step lib u e u' hagrees h,
      sound_step lib hagrees hsound h, continues_step hsound hu h⟩)
    ⟨ht.1, ht.2, [], hstart⟩ hlater
  have htold := Lts.runFrom_history allTold_step (allTold_init identityKeypair)
    (Lts.runFrom_append_eq_some.mpr ⟨t, hrun, hlater⟩)
  refine ⟨later, hs.served, hs.history, fun request hrequest => ?_, hs.requests⟩
  exact htold.served request (hs.served ▸ List.mem_append_right t.served hrequest)

/-- A second request comes while the first one is between its two assignments. -/
def overlappingRequests : List (AdminEvent Pubkey) :=
  [.request (.setIdentity []), .poll 0, .run (.ok (keyOf 2)) (.ok ()),
    .run (.ok (keyOf 2)) (.ok ()), .request .getIdentity]

theorem served_atomically_overlappingRequests :
    ∃ t s later,
      Lts.runFrom (step sampleLib) (init sampleLib (keyOf 1)) overlappingRequests = some t ∧
      Lts.runFrom (step sampleLib) t
        [.run (.error "") (.ok ()), .poll 0, .run (.error "") (.ok ())] = some s ∧
      later.map Served.request = [.setIdentity [], .getIdentity] ∧
      History sampleLib (keyOf 1) later (keyOf 2) := by
  obtain ⟨later, hserved, hhistory, -, -⟩ := @served_atomically Pubkey sampleLib (keyOf 1)
    overlappingRequests [.run (.error "") (.ok ()), .poll 0, .run (.error "") (.ok ())] _ _ rfl rfl
  refine ⟨_, _, later, rfl, rfl, ?_, hhistory⟩
  rw [← List.nil_append later]
  exact (congrArg (List.map Served.request) hserved).symm

end AdminServer

end Iris
