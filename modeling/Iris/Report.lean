import Iris.IngressLedger
import Iris.MevLedger

/-!
# The statistics report

Every few seconds `report` loads the counters, one after the other and while they are being
updated, and prints what has been added since the report before.

* `Snapshot`, `Figure`: the counters of a snapshot, in the order in which they are loaded;
* `Reporter`, `Monitored`, `step`: the task next to the servers, the channel and the broadcaster;
* **`load_le_step`**: the counters do not decrease;
* `Between`, **`between_step`**: a figure that has been loaded since a moment lies between its
  counters then and now;
* **`reports_add_up`**, **`report_between`**: what the reports say about the counters.
-/

namespace Iris

variable {ε τ : Type}

/-! ## Snapshots -/

/-- `saturating_sub`. -/
def saturatingSub (a b : UInt64) : UInt64 := if b ≤ a then a - b else 0

theorem toNat_saturatingSub (a b : UInt64) : (saturatingSub a b).toNat = a.toNat - b.toNat := by
  unfold saturatingSub
  split_ifs with h
  · exact UInt64.toNat_sub_of_le a b h
  · rw [UInt64.le_iff_toNat_le] at h
    have hzero : (0 : UInt64).toNat = 0 := rfl
    omega

/-- The `Snapshot` of `transaction_stats`. -/
structure Snapshot where
  quicReceived : UInt64 := 0
  quicInvalid : UInt64 := 0
  jsonRpcReceived : UInt64 := 0
  jsonRpcInvalid : UInt64 := 0
  mevProtectedReceived : UInt64 := 0
  tpuEnqueued : UInt64 := 0
  tpuDropped : UInt64 := 0
  mevBuffered : UInt64 := 0
  mevReleased : UInt64 := 0
deriving DecidableEq, Repr

/-- `Snapshot::since`. -/
def Snapshot.since (self previous : Snapshot) : Snapshot where
  quicReceived := saturatingSub self.quicReceived previous.quicReceived
  quicInvalid := saturatingSub self.quicInvalid previous.quicInvalid
  jsonRpcReceived := saturatingSub self.jsonRpcReceived previous.jsonRpcReceived
  jsonRpcInvalid := saturatingSub self.jsonRpcInvalid previous.jsonRpcInvalid
  mevProtectedReceived := saturatingSub self.mevProtectedReceived previous.mevProtectedReceived
  tpuEnqueued := saturatingSub self.tpuEnqueued previous.tpuEnqueued
  tpuDropped := saturatingSub self.tpuDropped previous.tpuDropped
  mevBuffered := saturatingSub self.mevBuffered previous.mevBuffered
  mevReleased := saturatingSub self.mevReleased previous.mevReleased

/-- The figures of a snapshot. -/
inductive Figure
  | counter (c : Counter)
  | mevBuffered
  | mevReleased
deriving DecidableEq, Repr

namespace Figure

/-- The order in which `Snapshot::load` loads them. -/
def all : List Figure :=
  [.counter .quicReceived, .counter .quicInvalid, .counter .jsonRpcReceived,
    .counter .jsonRpcInvalid, .counter .mevProtectedReceived, .counter .tpuEnqueued,
    .counter .tpuDropped, .mevBuffered, .mevReleased]

theorem mem_all (f : Figure) : f ∈ all := by
  rcases f with (_ | _ | _ | _ | _ | _ | _) | _ | _ <;> decide

/-- The atomic of a figure. -/
def load (f : Figure) (stats : TransactionStats) : UInt64 :=
  match f with
  | .counter c => c.read stats
  | .mevBuffered => stats.mevBuffered
  | .mevReleased => stats.mevReleased

def get (f : Figure) (snapshot : Snapshot) : UInt64 :=
  match f with
  | .counter .quicReceived => snapshot.quicReceived
  | .counter .quicInvalid => snapshot.quicInvalid
  | .counter .jsonRpcReceived => snapshot.jsonRpcReceived
  | .counter .jsonRpcInvalid => snapshot.jsonRpcInvalid
  | .counter .mevProtectedReceived => snapshot.mevProtectedReceived
  | .counter .tpuEnqueued => snapshot.tpuEnqueued
  | .counter .tpuDropped => snapshot.tpuDropped
  | .mevBuffered => snapshot.mevBuffered
  | .mevReleased => snapshot.mevReleased

def put (f : Figure) (value : UInt64) (snapshot : Snapshot) : Snapshot :=
  match f with
  | .counter .quicReceived => { snapshot with quicReceived := value }
  | .counter .quicInvalid => { snapshot with quicInvalid := value }
  | .counter .jsonRpcReceived => { snapshot with jsonRpcReceived := value }
  | .counter .jsonRpcInvalid => { snapshot with jsonRpcInvalid := value }
  | .counter .mevProtectedReceived => { snapshot with mevProtectedReceived := value }
  | .counter .tpuEnqueued => { snapshot with tpuEnqueued := value }
  | .counter .tpuDropped => { snapshot with tpuDropped := value }
  | .mevBuffered => { snapshot with mevBuffered := value }
  | .mevReleased => { snapshot with mevReleased := value }

theorem get_put (f g : Figure) (value : UInt64) (snapshot : Snapshot) :
    f.get (g.put value snapshot) = if f = g then value else f.get snapshot := by
  rcases f with (_ | _ | _ | _ | _ | _ | _) | _ | _ <;>
    rcases g with (_ | _ | _ | _ | _ | _ | _) | _ | _ <;> rfl

theorem get_default (f : Figure) : f.get {} = 0 := by
  rcases f with (_ | _ | _ | _ | _ | _ | _) | _ | _ <;> rfl

theorem get_since (f : Figure) (self previous : Snapshot) :
    f.get (self.since previous) = saturatingSub (f.get self) (f.get previous) := by
  rcases f with (_ | _ | _ | _ | _ | _ | _) | _ | _ <;> rfl

end Figure

/-! ## The counters do not decrease -/

namespace Service

variable (wincode : Wincode) (env : RpcEnv ε)

theorem updates_le_step {s s' : Service ε τ} {e : ServiceEvent ε τ}
    (h : step wincode env s e = some s') (c : Counter) : s.updates c ≤ s'.updates c := by
  cases did_of_step wincode env h with
  | arrived a input =>
    show _ ≤ total _ (s.handlers ++ [_])
    rw [Total.total_concat]
    exact Nat.le_add_right _ _
  | added outcome hi hrest =>
    rename_i i hd d rest
    have hset := Total.total_set (fun h => h.made.count c) hi (hd.add d rest)
    have hone := count_made_add hd d rest c
    show total _ s.handlers ≤ total _ (s.handlers.set i _)
    omega
  | offered outcome hi hrest =>
    rename_i i hd p rest
    have hset := Total.total_set (fun h => h.made.count c) hi (hd.offer p outcome rest)
    exact (Nat.add_right_cancel hset).ge
  | flushed | refreshed | prepared => exact Nat.le_refl _

theorem mev_le_step {es : List (ServiceEvent ε τ)} {s s' : Service ε τ} {e : ServiceEvent ε τ}
    (hs : Accounted es s) (hlen : es.length < 2 ^ 64) (h : step wincode env s e = some s') :
    s.stats.mevBuffered ≤ s'.stats.mevBuffered ∧ s.stats.mevReleased ≤ s'.stats.mevReleased := by
  obtain ⟨htallied, buffered, released, hledger⟩ := hs
  cases did_of_step wincode env h with
  | prepared isBlocked hchannel =>
    have hafter := ledger_prepare hledger isBlocked hchannel
    -- what was buffered, before and after, was counted by the handlers
    have hread := htallied.toNat_read hlen .mevProtectedReceived
    have hlt : s.updates .mevProtectedReceived < 2 ^ 64 := hread ▸ UInt64.toNat_lt _
    obtain ⟨hbuffered, hreleased, -⟩ :=
      hledger.toNat ((hledger.le_updates htallied.stage).trans_lt hlt)
    obtain ⟨hbuffered', hreleased', -⟩ :=
      hafter.toNat ((hafter.le_updates htallied.stage).trans_lt hlt)
    rw [UInt64.le_iff_toNat_le, UInt64.le_iff_toNat_le, hbuffered, hreleased, hbuffered',
      hreleased']
    exact ⟨Nat.le_add_right _ _, Nat.le_add_right _ _⟩
  | added outcome hi hrest =>
    rename_i i hd c rest
    cases c <;> exact ⟨UInt64.le_refl _, UInt64.le_refl _⟩
  | _ => exact ⟨UInt64.le_refl _, UInt64.le_refl _⟩

/-- **One step**, in a run of fewer than `2 ^ 64` events. -/
theorem load_le_step {es : List (ServiceEvent ε τ)} {s s' : Service ε τ} {e : ServiceEvent ε τ}
    (hs : Accounted es s) (hlen : (es ++ [e]).length < 2 ^ 64)
    (h : step wincode env s e = some s') (f : Figure) : f.load s.stats ≤ f.load s'.stats := by
  have hbefore : es.length < 2 ^ 64 := by
    rw [List.length_append] at hlen
    omega
  have htallied' := tallied_step wincode env es s e s' hs.1 h
  cases f with
  | counter c =>
    have hread : (c.read s.stats).toNat = s.updates c := hs.1.toNat_read hbefore c
    have hread' : (c.read s'.stats).toNat = s'.updates c := htallied'.toNat_read hlen c
    show c.read s.stats ≤ c.read s'.stats
    rw [UInt64.le_iff_toNat_le, hread, hread']
    exact updates_le_step wincode env h c
  | mevBuffered => exact (mev_le_step wincode env hs hbefore h).1
  | mevReleased => exact (mev_le_step wincode env hs hbefore h).2

/-- What has been received is no more than the events. -/
theorem received_le {es : List (ServiceEvent ε τ)} {s : Service ε τ} (hs : Tallied es s) :
    s.updates .quicReceived + s.updates .jsonRpcReceived ≤ es.length := by
  have hone : ∀ h ∈ s.handlers, h.made.count .quicReceived + h.made.count .jsonRpcReceived ≤
      h.made.length := by
    intro h _
    rw [← countP_isReceived]
    exact List.countP_le_length
  have htotal := Total.total_le hone
  rw [Total.total_add] at htotal
  exact htotal.trans hs.length

end Service

/-! ## The task -/

/-- What `report` prints. -/
structure Report where
  received : UInt64
  recent : Snapshot
  mevBufferSize : UInt64
  receivedTotal : UInt64
  total : Snapshot

/-- Where `report` is: at the `select!`, in `Snapshot::load` with some figures to go, or at its
end. -/
inductive ReporterPhase
  | waiting
  | loading (rest : List Figure) (total : Snapshot)
  | stopped

/-- The task, with a record of its reports. -/
structure Reporter where
  phase : ReporterPhase
  previous : Snapshot
  reports : List Report

def Reporter.init : Reporter := ⟨.waiting, {}, []⟩

/-- The report on `total`, the size of the buffer being loaded last. -/
def Reporter.reportOf (r : Reporter) (total : Snapshot) (stats : TransactionStats) : Report :=
  let recent := total.since r.previous
  { received := recent.quicReceived + recent.jsonRpcReceived
    recent
    mevBufferSize := stats.mevBufferSize
    receivedTotal := total.quicReceived + total.jsonRpcReceived
    total }

/-- The servers, the channel and the broadcaster, the task, and whether it has been cancelled. -/
structure Monitored (ε τ : Type) where
  service : Service ε τ
  reporter : Reporter
  cancelled : Bool

/-- What can happen next. -/
inductive MonitorEvent (ε τ : Type)
  | service (e : ServiceEvent ε τ)
  | cancel
  | tick
  | load
  | print
  | stop

namespace Monitored

open Lts

def init : Monitored ε τ := ⟨Service.init, Reporter.init, false⟩

variable (wincode : Wincode) (env : RpcEnv ε)

/-- One step; the counters may change between any two of the loads. -/
def step (s : Monitored ε τ) : MonitorEvent ε τ → Option (Monitored ε τ)
  | .service e => (Service.step wincode env s.service e).map fun service => { s with service }
  | .cancel => some { s with cancelled := true }
  | .tick =>
    match s.reporter.phase with
    | .waiting => some { s with reporter := { s.reporter with phase := .loading Figure.all {} } }
    | _ => none
  | .load =>
    match s.reporter.phase with
    | .loading (f :: rest) total =>
      some { s with
        reporter := { s.reporter with
          phase := .loading rest (f.put (f.load s.service.stats) total) } }
    | _ => none
  | .print =>
    match s.reporter.phase with
    | .loading [] total =>
      some { s with
        reporter :=
          ⟨.waiting, total, s.reporter.reports ++ [s.reporter.reportOf total s.service.stats]⟩ }
    | _ => none
  | .stop =>
    match s.reporter.phase, s.cancelled with
    | .waiting, true => some { s with reporter := { s.reporter with phase := .stopped } }
    | _, _ => none

/-- All that a step can do. -/
inductive Did (s : Monitored ε τ) : MonitorEvent ε τ → Monitored ε τ → Prop
  | service {e : ServiceEvent ε τ} {service : Service ε τ}
      (hstep : Service.step wincode env s.service e = some service) :
      Did s (.service e) { s with service }
  | cancelled : Did s .cancel { s with cancelled := true }
  | ticked (hphase : s.reporter.phase = .waiting) : Did s .tick
      { s with reporter := { s.reporter with phase := .loading Figure.all {} } }
  | loaded (f : Figure) (rest : List Figure) (total : Snapshot)
      (hphase : s.reporter.phase = .loading (f :: rest) total) : Did s .load
      { s with
        reporter := { s.reporter with
          phase := .loading rest (f.put (f.load s.service.stats) total) } }
  | printed (total : Snapshot) (hphase : s.reporter.phase = .loading [] total) : Did s .print
      { s with
        reporter :=
          ⟨.waiting, total, s.reporter.reports ++ [s.reporter.reportOf total s.service.stats]⟩ }
  | stopped (hphase : s.reporter.phase = .waiting) : Did s .stop
      { s with reporter := { s.reporter with phase := .stopped } }

theorem did_of_step {s s' : Monitored ε τ} {e : MonitorEvent ε τ}
    (h : step wincode env s e = some s') : Did wincode env s e s' := by
  cases e with
  | service e =>
    obtain ⟨service, hstep, rfl⟩ := Option.map_eq_some_iff.mp h
    exact .service hstep
  | cancel =>
    cases h
    exact .cancelled
  | tick =>
    simp only [step] at h
    split at h
    · rename_i hphase
      cases h
      exact .ticked hphase
    · cases h
  | load =>
    simp only [step] at h
    split at h
    · rename_i f rest total hphase
      cases h
      exact .loaded f rest total hphase
    · cases h
  | print =>
    simp only [step] at h
    split at h
    · rename_i total hphase
      cases h
      exact .printed total hphase
    · cases h
  | stop =>
    simp only [step] at h
    split at h
    · rename_i hphase hcancelled
      cases h
      exact .stopped hphase
    · cases h

/-! ## Between two moments -/

/-- The servers, the channel and the broadcaster have had a run of no more than these events. -/
def Watched (es : List (MonitorEvent ε τ)) (s : Monitored ε τ) : Prop :=
  ∃ fs, Service.Accounted fs s.service ∧ fs.length ≤ es.length

theorem watched_init : Watched [] (init : Monitored ε τ) :=
  ⟨[], Service.accounted_init, Nat.le_refl 0⟩

theorem watched_step (es : List (MonitorEvent ε τ)) (s : Monitored ε τ) (e : MonitorEvent ε τ)
    (s' : Monitored ε τ) (hs : Watched es s) (h : step wincode env s e = some s') :
    Watched (es ++ [e]) s' := by
  obtain ⟨fs, haccounted, hle⟩ := hs
  have hlength : (es ++ [e]).length = es.length + 1 := List.length_append
  cases did_of_step wincode env h with
  | service hstep =>
    refine ⟨_, Service.accounted_step wincode env fs _ _ _ haccounted hstep, ?_⟩
    rw [hlength, List.length_append]
    exact Nat.add_le_add_right hle 1
  | _ => exact ⟨fs, haccounted, by omega⟩

theorem load_le {es : List (MonitorEvent ε τ)} {s s' : Monitored ε τ} {e : MonitorEvent ε τ}
    (hs : Watched es s) (hlen : es.length + 1 < 2 ^ 64) (h : step wincode env s e = some s')
    (f : Figure) : f.load s.service.stats ≤ f.load s'.service.stats := by
  obtain ⟨fs, haccounted, hle⟩ := hs
  cases did_of_step wincode env h with
  | service hstep =>
    refine Service.load_le_step wincode env haccounted ?_ hstep f
    rw [List.length_append, List.length_singleton]
    omega
  | _ => exact UInt64.le_refl _

/-- The counters are not below `lower`, and a snapshot that is being loaded has, in the figures
it has loaded, values between `lower` and the counters. -/
structure Between (lower : Figure → UInt64) (s : Monitored ε τ) : Prop where
  le : ∀ f, lower f ≤ f.load s.service.stats
  loaded : ∀ rest total, s.reporter.phase = .loading rest total →
    ∃ done, Figure.all = done ++ rest ∧
      ∀ f ∈ done, lower f ≤ f.get total ∧ f.get total ≤ f.load s.service.stats

/-- Between two reports there is only the bound. -/
theorem between_waiting {lower : Figure → UInt64} {s : Monitored ε τ}
    (hphase : s.reporter.phase = .waiting) (hle : ∀ f, lower f ≤ f.load s.service.stats) :
    Between lower s := by
  refine ⟨hle, fun rest total hloading => ?_⟩
  rw [hphase] at hloading
  cases hloading

/-- **One step.** -/
theorem between_step {lower : Figure → UInt64} {s s' : Monitored ε τ} {e : MonitorEvent ε τ}
    (hs : Between lower s) (hmono : ∀ f : Figure, f.load s.service.stats ≤ f.load s'.service.stats)
    (h : step wincode env s e = some s') : Between lower s' := by
  have hle : ∀ f, lower f ≤ f.load s'.service.stats := fun f => UInt64.le_trans (hs.le f) (hmono f)
  refine ⟨hle, fun rest total hphase' => ?_⟩
  cases did_of_step wincode env h with
  | service hstep =>
    obtain ⟨done, hall, hdone⟩ := hs.loaded rest total hphase'
    exact ⟨done, hall, fun f hf => ⟨(hdone f hf).1, UInt64.le_trans (hdone f hf).2 (hmono f)⟩⟩
  | cancelled => exact hs.loaded rest total hphase'
  | ticked hphase =>
    cases hphase'
    exact ⟨[], rfl, by simp⟩
  | loaded g rest total hphase =>
    cases hphase'
    obtain ⟨done, hall, hdone⟩ := hs.loaded _ _ hphase
    refine ⟨done ++ [g], by rw [hall, List.append_assoc]; rfl, fun f hf => ?_⟩
    rw [Figure.get_put]
    by_cases hfg : f = g
    · rw [if_pos hfg, hfg]
      exact ⟨hs.le g, UInt64.le_refl _⟩
    · rw [if_neg hfg]
      exact hdone f ((List.mem_append.mp hf).resolve_right fun h => hfg (List.mem_singleton.mp h))
  | printed total hphase => cases hphase'
  | stopped hphase => cases hphase'

/-- A snapshot that has been loaded. -/
theorem Between.of_loaded {lower : Figure → UInt64} {s : Monitored ε τ} (hs : Between lower s)
    {total : Snapshot} (hphase : s.reporter.phase = .loading [] total) (f : Figure) :
    lower f ≤ f.get total ∧ f.get total ≤ f.load s.service.stats := by
  obtain ⟨done, hall, hdone⟩ := hs.loaded [] total hphase
  apply hdone
  rw [← List.append_nil done, ← hall]
  exact f.mem_all

/-! ## All reports together -/

/-- The recent figures of these reports add up to the figures of `last`. -/
def SumsTo (reports : List Report) (last : Snapshot) : Prop :=
  (∀ f : Figure, total (fun r => (f.get r.recent).toNat) reports = (f.get last).toNat) ∧
    total (fun r => r.received.toNat) reports =
      last.quicReceived.toNat + last.jsonRpcReceived.toNat

/-- The reports up to each one add up to its totals. -/
structure AddUp (s : Monitored ε τ) : Prop where
  between : Between (fun f => f.get s.reporter.previous) s
  sums : SumsTo s.reporter.reports s.reporter.previous
  each : ∀ before r after, s.reporter.reports = before ++ r :: after →
    SumsTo (before ++ [r]) r.total ∧
      r.receivedTotal.toNat = r.total.quicReceived.toNat + r.total.jsonRpcReceived.toNat

theorem addUp_init : AddUp (init : Monitored ε τ) where
  between := by
    refine between_waiting rfl fun f => ?_
    show f.get {} ≤ _
    rw [Figure.get_default]
    exact UInt64.zero_le
  sums := by
    refine ⟨fun f => ?_, rfl⟩
    show 0 = (f.get {}).toNat
    rw [Figure.get_default]
    rfl
  each := by
    intro before r after h
    cases before <;> cases h

/-- One more report. -/
theorem sumsTo_concat {reporter : Reporter} {total : Snapshot} {stats : TransactionStats}
    (hs : SumsTo reporter.reports reporter.previous)
    (hle : ∀ f : Figure, f.get reporter.previous ≤ f.get total)
    (hlt : total.quicReceived.toNat + total.jsonRpcReceived.toNat < 2 ^ 64) :
    SumsTo (reporter.reports ++ [reporter.reportOf total stats]) total := by
  have hone : ∀ f : Figure, (f.get (total.since reporter.previous)).toNat =
      (f.get total).toNat - (f.get reporter.previous).toNat := by
    intro f
    rw [Figure.get_since, toNat_saturatingSub]
  refine ⟨fun f => ?_, ?_⟩
  · have hf := UInt64.le_iff_toNat_le.mp (hle f)
    rw [Total.total_concat, hs.1 f]
    show _ + (f.get (total.since reporter.previous)).toNat = _
    rw [hone]
    omega
  · have hquic := UInt64.le_iff_toNat_le.mp (hle (.counter .quicReceived))
    have hjson := UInt64.le_iff_toNat_le.mp (hle (.counter .jsonRpcReceived))
    have hquic' := hone (.counter .quicReceived)
    have hjson' := hone (.counter .jsonRpcReceived)
    simp only [Figure.get] at hquic hjson hquic' hjson'
    rw [Total.total_concat, hs.2]
    show _ + ((total.since reporter.previous).quicReceived +
      (total.since reporter.previous).jsonRpcReceived).toNat = _
    rw [UInt64.toNat_add, hquic', hjson']
    omega

theorem Watched.received_lt {es : List (MonitorEvent ε τ)} {s : Monitored ε τ} (hs : Watched es s)
    (hlen : es.length < 2 ^ 64) : s.service.stats.quicReceived.toNat +
      s.service.stats.jsonRpcReceived.toNat < 2 ^ 64 := by
  obtain ⟨fs, ⟨htallied, -⟩, hle⟩ := hs
  have hquic := htallied.toNat_read (hle.trans_lt hlen) .quicReceived
  have hjson := htallied.toNat_read (hle.trans_lt hlen) .jsonRpcReceived
  have hreceived := Service.received_le htallied
  simp only [Counter.read] at hquic hjson
  omega

/-- **One step.** -/
theorem addUp_step {es : List (MonitorEvent ε τ)} {s s' : Monitored ε τ} {e : MonitorEvent ε τ}
    (hwatched : Watched es s) (hlen : es.length + 1 < 2 ^ 64) (hs : AddUp s)
    (h : step wincode env s e = some s') : AddUp s' := by
  have hbetween := between_step wincode env hs.between (load_le wincode env hwatched hlen h) h
  cases did_of_step wincode env h with
  | printed total hphase =>
    have hloaded := hs.between.of_loaded hphase
    have hlt : total.quicReceived.toNat + total.jsonRpcReceived.toNat < 2 ^ 64 := by
      have hquic := UInt64.le_iff_toNat_le.mp (hloaded (.counter .quicReceived)).2
      have hjson := UInt64.le_iff_toNat_le.mp (hloaded (.counter .jsonRpcReceived)).2
      have hstats := hwatched.received_lt (by omega)
      simp only [Figure.get, Figure.load, Counter.read] at hquic hjson
      omega
    have hsums : SumsTo (s.reporter.reports ++ [s.reporter.reportOf total s.service.stats]) total :=
      sumsTo_concat hs.sums (fun f => (hloaded f).1) hlt
    refine ⟨between_waiting rfl fun f => (hloaded f).2, hsums, fun before r after hreports => ?_⟩
    rcases List.eq_nil_or_concat after with rfl | ⟨after', last, rfl⟩
    · obtain ⟨rfl, hr⟩ := List.append_inj' hreports rfl
      cases hr
      refine ⟨hsums, ?_⟩
      show (total.quicReceived + total.jsonRpcReceived).toNat = _
      rw [UInt64.toNat_add, Nat.mod_eq_of_lt hlt]
      rfl
    · rw [List.concat_eq_append, ← List.cons_append, ← List.append_assoc] at hreports
      exact hs.each before r after' (List.append_inj' hreports rfl).1
  | _ => exact ⟨hbetween, hs.sums, hs.each⟩

/-- A run of fewer than `2 ^ 64` events. -/
theorem watched_run {es : List (MonitorEvent ε τ)} {s : Monitored ε τ}
    (hrun : runFrom (step wincode env) init es = some s) :
    Watched es s ∧ (es.length < 2 ^ 64 → AddUp s) := by
  refine runFrom_history (R := fun es s => Watched es s ∧ (es.length < 2 ^ 64 → AddUp s))
    (fun es s e s' hs h => ⟨watched_step wincode env es s e s' hs.1 h, fun hlen => ?_⟩)
    ⟨watched_init, fun _ => addUp_init⟩ hrun
  rw [List.length_append, List.length_singleton] at hlen
  exact addUp_step wincode env hs.1 hlen (hs.2 (by omega)) h

/-- **The reports add up.** In any run of fewer than `2 ^ 64` events: for each figure, what the
reports up to a given one call recent adds up to what this one calls the total, and so do the
transactions they call received, in a sum that does not overflow; no total is above its counter. -/
theorem reports_add_up {es : List (MonitorEvent ε τ)} {s : Monitored ε τ}
    (hrun : runFrom (step wincode env) init es = some s) (hlen : es.length < 2 ^ 64)
    {before after : List Report} {r : Report} (hr : s.reporter.reports = before ++ r :: after) :
    (∀ f : Figure, total (fun r => (f.get r.recent).toNat) (before ++ [r]) =
      (f.get r.total).toNat) ∧
    total (fun r => r.received.toNat) (before ++ [r]) = r.receivedTotal.toNat ∧
    r.receivedTotal.toNat = r.total.quicReceived.toNat + r.total.jsonRpcReceived.toNat ∧
    ∀ f : Figure, f.get r.total ≤ f.load s.service.stats := by
  have hs := (watched_run wincode env hrun).2 hlen
  obtain ⟨hsums, htotal⟩ := hs.each before r after hr
  refine ⟨hsums.1, hsums.2.trans htotal.symm, htotal, fun f => ?_⟩
  -- the reports after `r` can only add to the last total
  have hall := hs.sums.1 f
  rw [hr, List.append_cons, Total.total_append, hsums.1 f] at hall
  have hle := UInt64.le_iff_toNat_le.mp (hs.between.le f)
  rw [UInt64.le_iff_toNat_le]
  omega

/-- A stream arrives. -/
def arrival : List (MonitorEvent TransactionBinaryEncoding Unit) :=
  [.service (.arrive () (.quic (.finished (TransactionPacket.layout ⟨[7], true, none⟩))))]

/-- It is received and forwarded when the first of the counters has been loaded. -/
def lateLoads : List (MonitorEvent TransactionBinaryEncoding Unit) :=
  .load :: List.replicate 4 (.service (.run 0 .sent)) ++ List.replicate 8 .load

/-- One report on it, and another. -/
def twoReports : List (MonitorEvent TransactionBinaryEncoding Unit) :=
  arrival ++ .tick :: lateLoads ++ .print :: .tick :: List.replicate 9 .load ++ [.print]

theorem reports_add_up_twoReports :
    ∃ s r r', runFrom (step Wincode.standard sampleEnv) init twoReports = some s ∧
      s.reporter.reports = [r, r'] ∧ r'.received = 1 ∧
      total (fun r => r.received.toNat) [r, r'] = r'.receivedTotal.toNat :=
  ⟨_, _, _, rfl, rfl, rfl, (@reports_add_up _ _ Wincode.standard sampleEnv twoReports _ rfl
    (by decide) [_] [] _ rfl).2.1⟩

/-! ## One report -/

/-- A stretch of a run without a report. -/
theorem reports_eq_of_run {es : List (MonitorEvent ε τ)} {s s' : Monitored ε τ}
    (hrun : runFrom (step wincode env) s es = some s') (hes : .print ∉ es) :
    s'.reporter.reports = s.reporter.reports := by
  refine runFrom_history
    (R := fun es t => MonitorEvent.print ∉ es → t.reporter.reports = s.reporter.reports)
    (fun es t e t' ht h hprint => ?_) (fun _ => rfl) hrun hes
  rw [List.mem_append, not_or, List.mem_singleton] at hprint
  cases did_of_step wincode env h with
  | printed => exact absurd rfl hprint.2
  | _ => exact ht hprint.1

/-- A stretch of a run, after the events `es`. -/
theorem between_of_run {lower : Figure → UInt64} {es fs : List (MonitorEvent ε τ)}
    {s s' : Monitored ε τ} (hwatched : Watched es s) (hs : Between lower s)
    (hrun : runFrom (step wincode env) s fs = some s') (hlen : es.length + fs.length < 2 ^ 64) :
    Watched (es ++ fs) s' ∧ Between lower s' := by
  have hboth : Watched (es ++ fs) s' ∧ (es.length + fs.length < 2 ^ 64 → Between lower s') := by
    refine runFrom_history
      (R := fun fs t => Watched (es ++ fs) t ∧ (es.length + fs.length < 2 ^ 64 → Between lower t))
      (fun fs t e t' ht h => ?_) ⟨(List.append_nil es).symm ▸ hwatched, fun _ => hs⟩ hrun
    refine ⟨List.append_assoc es fs [e] ▸ watched_step wincode env _ t e t' ht.1 h, fun hlen => ?_⟩
    rw [List.length_append, List.length_singleton] at hlen
    refine between_step wincode env (ht.2 (by omega)) (load_le wincode env ht.1 ?_ h) h
    rw [List.length_append]
    omega
  exact ⟨hboth.1, hboth.2 hlen⟩

/-- What has become of the transactions, against those received. -/
theorem Watched.outcomes_le {es : List (MonitorEvent ε τ)} {s : Monitored ε τ}
    (hs : Watched es s) (hlen : es.length < 2 ^ 64) :
    s.service.stats.quicInvalid.toNat + s.service.stats.jsonRpcInvalid.toNat +
        s.service.stats.tpuEnqueued.toNat + s.service.stats.tpuDropped.toNat ≤
      s.service.stats.quicReceived.toNat + s.service.stats.jsonRpcReceived.toNat := by
  obtain ⟨fs, ⟨htallied, -⟩, hle⟩ := hs
  have hread : ∀ c : Counter, (c.read s.service.stats).toNat = s.service.updates c :=
    htallied.toNat_read (hle.trans_lt hlen)
  have hbalance := Service.ingress_balance htallied.stage
  rw [← hread, ← hread, ← hread, ← hread, ← hread, ← hread] at hbalance
  simp only [Counter.read] at hbalance
  omega

/-- **One report.** Take the stretch of a run from a tick to the report that it causes, in fewer
than `2 ^ 64` events from the start. Each figure of the report lies between its counter at the
tick and its counter when the report is printed, whatever was counted in between. So the report
never shows more transactions rejected, accepted or dropped than had then been received; it may
show fewer received, which it loads first. -/
theorem report_between {es₁ es₂ : List (MonitorEvent ε τ)} {s₁ t s₂ s₃ : Monitored ε τ}
    (hrun₁ : runFrom (step wincode env) init es₁ = some s₁)
    (htick : step wincode env s₁ .tick = some t)
    (hrun₂ : runFrom (step wincode env) t es₂ = some s₂) (hes₂ : .print ∉ es₂)
    (hprint : step wincode env s₂ .print = some s₃)
    (hlen : es₁.length + 1 + es₂.length < 2 ^ 64) :
    ∃ r, s₃.reporter.reports = s₁.reporter.reports ++ [r] ∧
      (∀ f : Figure, f.load s₁.service.stats ≤ f.get r.total ∧
        f.get r.total ≤ f.load s₂.service.stats) ∧
      r.total.quicInvalid.toNat + r.total.jsonRpcInvalid.toNat + r.total.tpuEnqueued.toNat +
          r.total.tpuDropped.toNat ≤
        s₂.service.stats.quicReceived.toNat + s₂.service.stats.jsonRpcReceived.toNat := by
  have hwatched := watched_step wincode env _ _ _ _ (watched_run wincode env hrun₁).1 htick
  cases did_of_step wincode env htick with
  | ticked hphase =>
    have hstart : Between (fun f => f.load s₁.service.stats)
        { s₁ with reporter := { s₁.reporter with phase := .loading Figure.all {} } } := by
      refine ⟨fun f => UInt64.le_refl _, fun rest total hloading => ?_⟩
      cases hloading
      exact ⟨[], rfl, by simp⟩
    have hlength : (es₁ ++ [MonitorEvent.tick]).length = es₁.length + 1 := List.length_append
    rw [← hlength] at hlen
    obtain ⟨hwatched₂, hbetween⟩ := between_of_run wincode env hwatched hstart hrun₂ hlen
    have hreports := reports_eq_of_run wincode env hrun₂ hes₂
    cases did_of_step wincode env hprint with
    | printed total hphase₂ =>
      have hloaded := hbetween.of_loaded hphase₂
      refine ⟨s₂.reporter.reportOf total s₂.service.stats, ?_, hloaded, ?_⟩
      · exact congrArg (· ++ _) hreports
      · have houtcomes := hwatched₂.outcomes_le (by rwa [List.length_append])
        have hfigure : ∀ c : Counter, ((Figure.counter c).get total).toNat ≤
            (c.read s₂.service.stats).toNat :=
          fun c => UInt64.le_iff_toNat_le.mp (hloaded (.counter c)).2
        have h₁ := hfigure .quicInvalid
        have h₂ := hfigure .jsonRpcInvalid
        have h₃ := hfigure .tpuEnqueued
        have h₄ := hfigure .tpuDropped
        simp only [Figure.get, Counter.read] at h₁ h₂ h₃ h₄
        show total.quicInvalid.toNat + total.jsonRpcInvalid.toNat + total.tpuEnqueued.toNat +
          total.tpuDropped.toNat ≤ _
        omega

theorem report_between_lateLoads :
    ∃ s₁ t s₂ s₃ r, runFrom (step Wincode.standard sampleEnv) init arrival = some s₁ ∧
      step Wincode.standard sampleEnv s₁ .tick = some t ∧
      runFrom (step Wincode.standard sampleEnv) t lateLoads = some s₂ ∧
      step Wincode.standard sampleEnv s₂ .print = some s₃ ∧
      s₃.reporter.reports = s₁.reporter.reports ++ [r] ∧
      ∀ f : Figure, f.load s₁.service.stats ≤ f.get r.total := by
  obtain ⟨r, hr, hbetween, -⟩ := @report_between _ _ Wincode.standard sampleEnv arrival lateLoads
    _ _ _ _ rfl rfl rfl (by simp [lateLoads]) rfl (by decide)
  exact ⟨_, _, _, _, r, rfl, rfl, rfl, rfl, hr, fun f => (hbetween f).1⟩

end Monitored

end Iris
