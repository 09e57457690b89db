import Iris.DecodeTransaction
import Iris.Lib.Run
import Iris.Shield

/-!
# The admin server

The server keeps the identity it reports beside the one the TPU client holds, and its requests
change the one after the other. It runs on a single thread, where a task gives way to another at
an `await` only; its handlers have none.

* `KeypairLib`, `AdminRequest`, `AdminServer`, `AdminEvent`, `step`: the server, one statement of
  a handler at a time, with a record of the requests served;
* `inUse`: the identity of the last request whose update succeeded;
* `Agrees`, **`agrees_step`**: the two identities agree, except between the two statements that
  change them;
* **`identity_agrees`**: the replies, and the requests that fail, over all runs.
-/

namespace Iris

/-- `Keypair` and what the server uses of it. -/
structure KeypairLib (χ : Type) where
  pubkey : χ → Pubkey
  tryFrom : Octets → Except String χ

inductive AdminRequest
  | setIdentity (path : Text)
  | setIdentityFromBytes (identity : Octets)
  | getIdentity
deriving DecidableEq, Repr

/-- The statement that a handler is at: the first one, `update_identity`, or the assignment of the
reported identity. -/
inductive AdminPhase (χ : Type)
  | start
  | update (keypair : χ)
  | store (keypair : χ)
deriving DecidableEq

/-- The identity that the TPU client holds and the one that is reported. -/
structure Identities where
  client : Pubkey
  reported : Pubkey
deriving DecidableEq

/-- What a handler has been told by `Keypair::read_from_file` and by `update_identity`, if it has
called them. -/
structure AdminCalls (χ : Type) where
  file : Option (Except String χ)
  update : Option (Except String Unit)
deriving DecidableEq

/-- A handler on the thread, the identities it found, and the calls it has made. -/
structure AdminTask (χ : Type) where
  request : AdminRequest
  phase : AdminPhase χ
  found : Identities
  calls : AdminCalls χ
deriving DecidableEq

/-- The task after `read_from_file` has returned. -/
def AdminTask.hasRead {χ : Type} (task : AdminTask χ) (file : Except String χ) : AdminTask χ :=
  { task with calls.file := some file }

/-- The task after `update_identity` has returned. -/
def AdminTask.hasUpdated {χ : Type} (task : AdminTask χ) (update : Except String Unit) :
    AdminTask χ :=
  { task with calls.update := some update }

/-- A request served: the identities it found, the calls it made, the identity it installed if its
update succeeded, and its reply, without a text where that is `()`. -/
structure Served (χ : Type) where
  request : AdminRequest
  found : Identities
  calls : AdminCalls χ
  installed : Option Pubkey
  reply : Except ErrorObject (Option Text)

/-- The TPU client, the server, the requests that wait for the thread, and a record of the requests
served. -/
structure AdminServer (χ : Type) where
  client : Pubkey
  identity : Pubkey
  pending : List AdminRequest
  running : Option (AdminTask χ)
  served : List (Served χ)

/-- What can happen next. A statement of a handler may read a file or update the client; the event
says with what result. -/
inductive AdminEvent (χ : Type)
  | request (request : AdminRequest)
  | poll (i : ℕ)
  | run (file : Except String χ) (update : Except String Unit)

namespace AdminServer

variable {χ : Type} (lib : KeypairLib χ)

/-- The state after `run` of `main.rs` has built the client and spawned the server, both with the
same identity. -/
def init (identityKeypair : χ) : AdminServer χ :=
  ⟨lib.pubkey identityKeypair, lib.pubkey identityKeypair, [], none, []⟩

def identities (s : AdminServer χ) : Identities := ⟨s.client, s.identity⟩

/-- The handler returns, and the thread is free. -/
def finish (s : AdminServer χ) (task : AdminTask χ) (installed : Option Pubkey)
    (reply : Except ErrorObject (Option Text)) : AdminServer χ :=
  { s with
    running := none
    served := s.served ++ [⟨task.request, task.found, task.calls, installed, reply⟩] }

/-- The handler has its keypair, or fails. -/
def obtained (s : AdminServer χ) (task : AdminTask χ) (context : String) :
    Except String χ → AdminServer χ
  | .ok keypair => { s with running := some { task with phase := .update keypair } }
  | .error e => s.finish task none (.error (invalidRequest (context ++ e)))

/-- One statement of the handler on the thread: of `set_identity`, `set_identity_from_bytes` or
`get_identity`. -/
def statement (s : AdminServer χ) (task : AdminTask χ) (file : Except String χ)
    (update : Except String Unit) : AdminServer χ :=
  match task.phase with
  | .start =>
    match task.request with
    | .setIdentity _ => s.obtained (task.hasRead file) "Failed to read keypair: " file
    | .setIdentityFromBytes bytes =>
      s.obtained task "Failed to parse keypair: " (lib.tryFrom bytes)
    | .getIdentity => s.finish task none (.ok (some s.identity.toText))
  | .update keypair =>
    match update with
    | .ok () =>
      { s with
        client := lib.pubkey keypair
        running := some { task.hasUpdated update with phase := .store keypair } }
    | .error e =>
      s.finish (task.hasUpdated update) none
        (.error (invalidRequest ("Failed to update identity: " ++ e)))
  | .store keypair =>
    { s with identity := lib.pubkey keypair }.finish task (some (lib.pubkey keypair)) (.ok none)

/-- One step. A request that waits gets the thread when no handler is on it. -/
def step (s : AdminServer χ) : AdminEvent χ → Option (AdminServer χ)
  | .request request => some { s with pending := s.pending ++ [request] }
  | .poll i =>
    match s.running, s.pending[i]? with
    | none, some request =>
      some { s with
        pending := s.pending.eraseIdx i
        running := some ⟨request, .start, s.identities, ⟨none, none⟩⟩ }
    | _, _ => none
  | .run file update => s.running.map fun task => s.statement lib task file update

/-- The identity of the last request whose update succeeded, or the initial one. -/
def inUse (initial : Pubkey) (served : List (Served χ)) : Pubkey :=
  served.foldl (fun key request => request.installed.getD key) initial

theorem inUse_concat (initial : Pubkey) (served : List (Served χ)) (request : Served χ) :
    inUse initial (served ++ [request]) = request.installed.getD (inUse initial served) := by
  rw [inUse, List.foldl_append]
  rfl

/-! ## The two identities -/

/-- The reported identity is the one in use. It is also the client's, and a handler has left both
as it found them, unless the handler is between its two assignments. -/
structure Agrees (initial : Pubkey) (s : AdminServer χ) : Prop where
  reported : s.identity = inUse initial s.served
  idle : s.running = none → s.client = s.identity
  before : ∀ task, s.running = some task → (∀ keypair, task.phase ≠ .store keypair) →
    s.client = s.identity ∧ task.found = s.identities
  between : ∀ task keypair, s.running = some task → task.phase = .store keypair →
    s.client = lib.pubkey keypair
  setter : ∀ task, s.running = some task → task.phase ≠ .start → task.request ≠ .getIdentity

theorem agrees_init (identityKeypair : χ) :
    Agrees lib (lib.pubkey identityKeypair) (init lib identityKeypair) where
  reported := rfl
  idle := fun _ => rfl
  before := nofun
  between := nofun
  setter := nofun

/-- **A handler that returns** leaves the identities in agreement if they are, and the record
knows what it has installed. -/
theorem agrees_finish {initial : Pubkey} {s : AdminServer χ} {task : AdminTask χ}
    {installed : Option Pubkey} {reply : Except ErrorObject (Option Text)}
    (hreported : s.identity = installed.getD (inUse initial s.served))
    (hagree : s.client = s.identity) : Agrees lib initial (s.finish task installed reply) where
  reported := by
    show s.identity = inUse initial (s.served ++ [_])
    rw [inUse_concat]
    exact hreported
  idle := fun _ => hagree
  before := nofun
  between := nofun
  setter := nofun

theorem agrees_obtained {initial : Pubkey} {s : AdminServer χ} (hs : Agrees lib initial s)
    {task : AdminTask χ} (hset : task.request ≠ .getIdentity) (hagree : s.client = s.identity)
    (hfound : task.found = s.identities) (context : String) (res : Except String χ) :
    Agrees lib initial (s.obtained task context res) := by
  cases res with
  | error e => exact agrees_finish lib hs.reported hagree
  | ok keypair =>
    refine ⟨hs.reported, nofun, fun task' htask _ => ?_, fun task' keypair' htask hphase => ?_,
      fun task' htask _ => ?_⟩
    · cases htask
      exact ⟨hagree, hfound⟩
    · cases htask
      cases hphase
    · cases htask
      exact hset

theorem agrees_statement {initial : Pubkey} {s : AdminServer χ} (hs : Agrees lib initial s)
    {task : AdminTask χ} (htask : s.running = some task) (file : Except String χ)
    (update : Except String Unit) : Agrees lib initial (s.statement lib task file update) := by
  cases hphase : task.phase with
  | start =>
    obtain ⟨hagree, hfound⟩ := hs.before task htask (by simp [hphase])
    cases hrequest : task.request with
    | setIdentity path =>
      simp only [statement, hphase, hrequest]
      have hset : (task.hasRead file).request ≠ .getIdentity := by simp [AdminTask.hasRead, hrequest]
      have hread : (task.hasRead file).found = s.identities := hfound
      exact agrees_obtained lib hs hset hagree hread _ file
    | setIdentityFromBytes bytes =>
      simp only [statement, hphase, hrequest]
      exact agrees_obtained lib hs (by simp [hrequest]) hagree hfound _ (lib.tryFrom bytes)
    | getIdentity =>
      simp only [statement, hphase, hrequest]
      exact agrees_finish lib hs.reported hagree
  | update keypair =>
    obtain ⟨hagree, -⟩ := hs.before task htask (by simp [hphase])
    cases update with
    | error e =>
      simp only [statement, hphase]
      exact agrees_finish lib hs.reported hagree
    | ok =>
      simp only [statement, hphase]
      refine ⟨hs.reported, nofun, fun task' htask' hne => ?_, fun task' keypair' htask' hphase' => ?_,
        fun task' htask' _ => ?_⟩
      · cases htask'
        exact absurd rfl (hne keypair)
      · cases htask'
        cases hphase'
        rfl
      · cases htask'
        exact hs.setter task htask (by simp [hphase])
  | store keypair =>
    have hclient := hs.between task keypair htask hphase
    simp only [statement, hphase]
    exact agrees_finish lib rfl hclient

theorem agrees_step {initial : Pubkey} (s : AdminServer χ) (e : AdminEvent χ) (s' : AdminServer χ)
    (hs : Agrees lib initial s) (h : step lib s e = some s') : Agrees lib initial s' := by
  cases e with
  | request request =>
    cases h
    exact ⟨hs.reported, hs.idle, hs.before, hs.between, hs.setter⟩
  | poll i =>
    simp only [step] at h
    split at h
    · rename_i hfree hpending
      cases h
      have hagree := hs.idle hfree
      refine ⟨hs.reported, nofun, fun task htask _ => ?_, fun task keypair htask hphase => ?_,
        fun task htask hphase => ?_⟩
      · cases htask
        exact ⟨hagree, rfl⟩
      · cases htask
        cases hphase
      · cases htask
        exact absurd rfl hphase
    · cases h
  | run file update =>
    obtain ⟨task, htask, rfl⟩ := Option.map_eq_some_iff.mp h
    exact agrees_statement lib hs htask file update

theorem agrees_of_run {identityKeypair : χ} {es : List (AdminEvent χ)} {s : AdminServer χ}
    (hrun : Lts.runFrom (step lib) (init lib identityKeypair) es = some s) :
    Agrees lib (lib.pubkey identityKeypair) s :=
  Lts.runFrom_invariant (agrees_step lib) (agrees_init lib identityKeypair) hrun

/-! ## Replies -/

/-- The step serves this request. -/
def Serves (s s' : AdminServer χ) (request : Served χ) : Prop := s'.served = s.served ++ [request]

theorem serves_finish {s t : AdminServer χ} {task : AdminTask χ} {installed : Option Pubkey}
    {reply : Except ErrorObject (Option Text)} {request : Served χ} (ht : t.served = s.served)
    (h : Serves s (t.finish task installed reply) request) :
    request = ⟨task.request, task.found, task.calls, installed, reply⟩ := by
  unfold Serves finish at h
  rw [ht, List.append_cancel_left_eq, List.singleton_inj] at h
  exact h.symm

theorem not_serves {s s' : AdminServer χ} (h : s'.served = s.served) (request : Served χ) :
    ¬ Serves s s' request := by
  unfold Serves
  rw [h]
  simp

/-- A handler that could not obtain a keypair found the identities that are there. -/
theorem served_of_obtained {s : AdminServer χ} {task : AdminTask χ} {context : String}
    {res : Except String χ} {request : Served χ} (hfound : task.found = s.identities)
    (h : Serves s (s.obtained task context res) request) :
    request.request = task.request ∧ request.found = (s.obtained task context res).identities := by
  cases res with
  | ok keypair => exact absurd h (not_serves rfl request)
  | error e =>
    obtain rfl := serves_finish rfl h
    exact ⟨rfl, hfound⟩

/-- **What a reply says.** A reply to `getIdentity` is the text of the client's identity, and after
an error both identities are what the request found. -/
theorem served_of_step {initial : Pubkey} {s s' : AdminServer χ} {e : AdminEvent χ}
    (hs : Agrees lib initial s) (h : step lib s e = some s') {request : Served χ}
    (hserves : Serves s s' request) :
    (request.request = .getIdentity →
      request.reply = .ok (some s.client.toText) ∧ s.client = inUse initial s.served) ∧
    ((∃ error, request.reply = .error error) → s'.identities = request.found) := by
  cases e with
  | request r => cases h; exact absurd hserves (not_serves rfl request)
  | poll i =>
    simp only [step] at h
    split at h
    · cases h; exact absurd hserves (not_serves rfl request)
    · cases h
  | run file update =>
    obtain ⟨task, htask, rfl⟩ := Option.map_eq_some_iff.mp h
    cases hphase : task.phase with
    | start =>
      obtain ⟨hagree, hfound⟩ := hs.before task htask (by simp [hphase])
      cases hrequest : task.request with
      | setIdentity path =>
        simp only [statement, hphase, hrequest] at hserves ⊢
        have hread : (task.hasRead file).found = s.identities := hfound
        obtain ⟨hsame, hkept⟩ := served_of_obtained hread hserves
        exact ⟨fun hget => by simp [hsame, AdminTask.hasRead, hrequest] at hget,
          fun _ => hkept.symm⟩
      | setIdentityFromBytes bytes =>
        simp only [statement, hphase, hrequest] at hserves ⊢
        obtain ⟨hsame, hkept⟩ := served_of_obtained hfound hserves
        exact ⟨fun hget => by simp [hsame, hrequest] at hget, fun _ => hkept.symm⟩
      | getIdentity =>
        simp only [statement, hphase, hrequest] at hserves ⊢
        obtain rfl := serves_finish rfl hserves
        refine ⟨fun _ => ⟨?_, hagree.trans hs.reported⟩, nofun⟩
        rw [hagree]
    | update keypair =>
      obtain ⟨hagree, hfound⟩ := hs.before task htask (by simp [hphase])
      cases update with
      | ok =>
        simp only [statement, hphase] at hserves
        exact absurd hserves (not_serves rfl request)
      | error e =>
        simp only [statement, hphase] at hserves ⊢
        obtain rfl := serves_finish rfl hserves
        exact ⟨fun hget => absurd hget (hs.setter task htask (by simp [hphase])),
          fun _ => hfound.symm⟩
    | store keypair =>
      simp only [statement, hphase] at hserves
      obtain rfl := serves_finish rfl hserves
      exact ⟨fun hget => absurd hget (hs.setter task htask (by simp [hphase])), nofun⟩

/-- **The reported identity is the one in use.** Whenever the thread is free the server and the
client hold the same identity. Every reply to `getIdentity` is the text of the identity that the
client holds, which is that of the last request whose update succeeded; and after a request that
fails both identities are what the request found. -/
theorem identity_agrees {identityKeypair : χ} {es : List (AdminEvent χ)} {s : AdminServer χ}
    (hrun : Lts.runFrom (step lib) (init lib identityKeypair) es = some s) :
    (s.running = none → s.client = s.identity) ∧
    ∀ e s' request, step lib s e = some s' → Serves s s' request →
      (request.request = .getIdentity → request.reply = .ok (some s.client.toText) ∧
        s.client = inUse (lib.pubkey identityKeypair) s.served) ∧
      ((∃ error, request.reply = .error error) → s'.identities = request.found) := by
  have hs := agrees_of_run lib hrun
  exact ⟨hs.idle, fun e s' request h hserves => served_of_step lib hs h hserves⟩

/-- Keypairs that are their public keys. -/
def sampleLib : KeypairLib Pubkey where
  pubkey := id
  tryFrom := fun bytes =>
    match Pubkey.tryFromSlice bytes with
    | some keypair => .ok keypair
    | none => .error "not a keypair"

/-- The identity of 32 equal bytes. -/
def keyOf (byte : UInt8) : Pubkey := ⟨List.replicate 32 byte, List.length_replicate⟩

/-- An update succeeds and one fails; the requests arrive together. -/
def adminRun : List (AdminEvent Pubkey) :=
  [.request (.setIdentity []), .request (.setIdentityFromBytes (keyOf 3).val),
    .request .getIdentity, .poll 0, .run (.ok (keyOf 2)) (.ok ()), .run (.ok (keyOf 2)) (.ok ()),
    .run (.ok (keyOf 2)) (.ok ()), .poll 0, .run (.error "") (.ok ()),
    .run (.error "") (.error "closed"), .poll 0]

theorem identity_agrees_adminRun :
    ∃ s s' request, Lts.runFrom (step sampleLib) (init sampleLib (keyOf 1)) adminRun = some s ∧
      step sampleLib s (.run (.error "") (.ok ())) = some s' ∧ Serves s s' request ∧
      request.reply = .ok (some (keyOf 2).toText) := by
  have hmap : (Lts.runFrom (step sampleLib) (init sampleLib (keyOf 1)) adminRun).map
      (fun s => (s.client, s.running)) =
        some (keyOf 2, some ⟨.getIdentity, .start, ⟨keyOf 2, keyOf 2⟩, ⟨none, none⟩⟩) := by decide
  obtain ⟨s, hrun, hs⟩ := Option.map_eq_some_iff.mp hmap
  obtain ⟨hclient, hrunning⟩ := Prod.mk.inj hs
  have hstep : step sampleLib s (.run (.error "") (.ok ())) =
      some (s.finish ⟨.getIdentity, .start, ⟨keyOf 2, keyOf 2⟩, ⟨none, none⟩⟩ none
        (.ok (some s.identity.toText))) := by
    rw [step, hrunning]
    rfl
  have hreply := ((identity_agrees sampleLib hrun).2 _ _ _ hstep rfl).1 rfl
  rw [hclient] at hreply
  exact ⟨s, _, _, hrun, hstep, rfl, hreply.1⟩

end AdminServer

end Iris
