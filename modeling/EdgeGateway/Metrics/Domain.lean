-- What the gateway reports of its machine. A report holds the difference
-- between the bytes read now and the bytes read before; the law says of which
-- traffic the reports of a run add up to the whole.
import Mathlib.Algebra.Order.Ring.Nat
import Mathlib.Algebra.Order.Sub.Basic
import Mathlib.Data.List.Chain
import EdgeGateway.Lib.Deltas
import EdgeGateway.Lib.Text
import EdgeGateway.Message.Domain

namespace EdgeGateway.Metrics

open EdgeGateway.Lib EdgeGateway.Message

/-! ## What is read of the machine -/

/-- An interface of `sysinfo`: the bytes since the refresh before. -/
structure NetworkData where
  received : UInt64
  transmitted : UInt64
  deriving Repr, DecidableEq, Inhabited

structure Disk where
  mountPoint : Path
  totalSpace : UInt64
  availableSpace : UInt64
  deriving Repr, DecidableEq, Inhabited

structure WifiSignal where
  rssi : Int32
  dbm : Int32
  deriving Repr, DecidableEq, Inhabited

/-- What the machine answers once everything is refreshed. `now` is the
monotonic clock, in nanoseconds; the last three are what the helpers found in
the files of the kernel. -/
structure Readings where
  now : Nat
  cpus : List Float32
  totalMemory : UInt64
  usedMemory : UInt64
  disks : List Disk
  networks : List NetworkData
  cpuTemperature : Option Float32
  wifiSignal : Option WifiSignal
  serviceMemoryMb : Option UInt64
  deriving Inhabited

/-! ## `MetricsCollector` -/

structure MetricsCollector where
  lastRxBytes : UInt64
  lastTxBytes : UInt64
  startTime : Nat
  deriving Repr, DecidableEq

/-- `u64::saturating_sub` -/
def saturatingSub (a b : UInt64) : UInt64 := if b ≤ a then a - b else 0

/-- The sum over the interfaces, as the loops of `new` and `collect` make it. -/
def sumBytes (counted : NetworkData → UInt64) (networks : List NetworkData) : UInt64 :=
  networks.foldl (fun sum data => sum + counted data) 0

/-- The size, the use and the share in use of the disk at the root. -/
def rootDisk (disks : List Disk) : UInt64 × UInt64 × Float32 :=
  match disks.find? (fun disk => disk.mountPoint.same ⟨"/"⟩) with
  | none => (0, 0, 0.0)
  | some disk =>
    let total := disk.totalSpace
    let used := total - disk.availableSpace
    (total / 1024 / 1024 / 1024, used / 1024 / 1024 / 1024,
      (used.toFloat32 / total.toFloat32) * 100.0)

namespace MetricsCollector

def new (r : Readings) : MetricsCollector where
  lastRxBytes := sumBytes NetworkData.received r.networks
  lastTxBytes := sumBytes NetworkData.transmitted r.networks
  startTime := r.now

def collect (c : MetricsCollector) (metadata : Metadata) (r : Readings) :
    MetricsCollector × SystemMetrics :=
  let cpuUsagePercent : Float32 :=
    if r.cpus.isEmpty then 0.0
    else r.cpus.foldl (fun sum usage => sum + usage) 0.0 / Float32.ofNat r.cpus.length
  let (sdTotalGb, sdUsedGb, sdUsagePercent) := rootDisk r.disks
  let currentRxBytes := sumBytes NetworkData.received r.networks
  let currentTxBytes := sumBytes NetworkData.transmitted r.networks
  ({ c with lastRxBytes := currentRxBytes, lastTxBytes := currentTxBytes },
    { metadata
      uptimeSeconds := UInt64.ofNat ((r.now - c.startTime) / 10 ^ 9)
      cpuUsagePercent := ⟨cpuUsagePercent.toBits⟩
      cpuTempCelsius := ⟨(r.cpuTemperature.getD 0.0).toBits⟩
      ramTotalMb := r.totalMemory / (1024 * 1024)
      ramUsedMb := r.usedMemory / (1024 * 1024)
      ramUsedByServiceMb := r.serviceMemoryMb.getD 0
      sdTotalGb
      sdUsedGb
      sdUsagePercent := ⟨sdUsagePercent.toBits⟩
      networkRxBytes := saturatingSub currentRxBytes c.lastRxBytes
      networkTxBytes := saturatingSub currentTxBytes c.lastTxBytes
      wifiRssi := r.wifiSignal.map WifiSignal.rssi
      wifiSignalDbm := r.wifiSignal.map WifiSignal.dbm })

/-- The reports of a run, one for each timeout of `system_metrics`. -/
def collects (c : MetricsCollector) : List (Metadata × Readings) → List SystemMetrics
  | [] => []
  | (metadata, r) :: rest =>
    (c.collect metadata r).2 :: (c.collect metadata r).1.collects rest

end MetricsCollector

/-! ## Traffic -/

/-- The two directions that a report tells apart. -/
inductive Direction where
  | rx
  | tx
  deriving Repr, DecidableEq

namespace Direction

def counted : Direction → NetworkData → UInt64
  | rx => NetworkData.received
  | tx => NetworkData.transmitted

def reported : Direction → SystemMetrics → UInt64
  | rx => SystemMetrics.networkRxBytes
  | tx => SystemMetrics.networkTxBytes

def last : Direction → MetricsCollector → UInt64
  | rx => MetricsCollector.lastRxBytes
  | tx => MetricsCollector.lastTxBytes

/-- What the loop makes of the interfaces. -/
def bytes (d : Direction) (r : Readings) : UInt64 := sumBytes d.counted r.networks

/-- The bytes that went over all interfaces. -/
def total (d : Direction) (r : Readings) : Nat := (r.networks.map (fun n => (d.counted n).toNat)).sum

end Direction

section Traffic

variable (d : Direction)

theorem toNat_saturatingSub (a b : UInt64) : (saturatingSub a b).toNat = a.toNat - b.toNat := by
  unfold saturatingSub
  split
  · rename_i h
    exact UInt64.toNat_sub_of_le a b h
  · rename_i h
    have hlt : a.toNat < b.toNat := UInt64.lt_iff_toNat_lt.mp (UInt64.not_le.mp h)
    rw [UInt64.toNat_zero]
    omega

/-- The loop adds up to the bytes as long as these fit its variable. -/
theorem toNat_bytes (r : Readings) : (d.bytes r).toNat = d.total r % 2 ^ 64 := by
  have hloop : ∀ (l : List NetworkData) (sum : UInt64),
      (l.foldl (fun sum data => sum + d.counted data) sum).toNat =
        (sum.toNat + (l.map (fun n => (d.counted n).toNat)).sum) % 2 ^ 64 := by
    intro l
    induction l with
    | nil =>
      intro sum
      have hlt := sum.toNat_lt
      simp only [List.foldl_nil, List.map_nil, List.sum_nil]
      omega
    | cons data l ih =>
      intro sum
      rw [List.foldl_cons, ih, UInt64.toNat_add, List.map_cons, List.sum_cons]
      omega
  have hbytes := hloop r.networks 0
  rw [UInt64.toNat_zero, Nat.zero_add] at hbytes
  exact hbytes

theorem last_new (r : Readings) : d.last (.new r) = d.bytes r := by
  cases d <;> rfl

theorem last_collect (c : MetricsCollector) (metadata : Metadata) (r : Readings) :
    d.last (c.collect metadata r).1 = d.bytes r := by
  cases d <;> rfl

theorem reported_collect (c : MetricsCollector) (metadata : Metadata) (r : Readings) :
    d.reported (c.collect metadata r).2 = saturatingSub (d.bytes r) (d.last c) := by
  cases d <;> rfl

/-- The reports of a run hold the differences of its readings. -/
theorem reported_collects (c : MetricsCollector) (calls : List (Metadata × Readings)) :
    (c.collects calls).map (fun m => (d.reported m).toNat) =
      deltas (d.last c).toNat (calls.map (fun call => (d.bytes call.2).toNat)) := by
  induction calls generalizing c with
  | nil => rfl
  | cons call rest ih =>
    obtain ⟨metadata, r⟩ := call
    rw [MetricsCollector.collects, List.map_cons, ih, reported_collect, toNat_saturatingSub,
      last_collect]
    rfl

/-- The readings of a run, with the ones before it. -/
theorem map_bytes (start : Readings) (calls : List (Metadata × Readings)) :
    (start :: calls.map Prod.snd).map (fun r => (d.bytes r).toNat) =
      (d.bytes start).toNat :: calls.map (fun call => (d.bytes call.2).toNat) := by
  rw [List.map_cons, List.map_map]
  rfl

/-- Of counters that only grow, which is what the code takes the readings for, the reports add up
to the growth. -/
theorem counters_add_up {start : Readings} {calls : List (Metadata × Readings)}
    (h : (start :: calls.map Prod.snd).IsChain (fun a b => d.bytes a ≤ d.bytes b)) :
    (((MetricsCollector.new start).collects calls).map (fun m => (d.reported m).toNat)).sum +
        (d.bytes start).toNat =
      (d.bytes ((start :: calls.map Prod.snd).getLast (by simp))).toNat := by
  have hgrows : ((d.bytes start).toNat ::
      calls.map (fun call => (d.bytes call.2).toNat)).IsChain (· ≤ ·) := by
    rw [← map_bytes, List.isChain_map]
    exact h.imp fun a b hle => UInt64.le_iff_toNat_le.mp hle
  rw [reported_collects, last_new, sum_deltas_of_grows hgrows]
  simp only [← map_bytes, List.getLast_map]

theorem sum_bytes_le (calls : List (Metadata × Readings)) :
    (calls.map (fun call => (d.bytes call.2).toNat)).sum ≤
      (calls.map (fun call => d.total call.2)).sum := by
  refine List.sum_le_sum fun call _ => ?_
  rw [toNat_bytes]
  exact Nat.mod_le _ _

/-- The loop keeps all bytes of a run exactly when those of each interval fit its variable. -/
theorem sum_bytes_eq_iff (calls : List (Metadata × Readings)) :
    (calls.map (fun call => (d.bytes call.2).toNat)).sum =
        (calls.map (fun call => d.total call.2)).sum ↔
      ∀ call ∈ calls, d.total call.2 < 2 ^ 64 := by
  induction calls with
  | nil => simp
  | cons call rest ih =>
    have hfits : d.total call.2 % 2 ^ 64 = d.total call.2 ↔ d.total call.2 < 2 ^ 64 := by omega
    rw [List.map_cons, List.map_cons, List.sum_cons, List.sum_cons, List.forall_mem_cons,
      toNat_bytes, add_eq_add_iff_eq_and_eq (Nat.mod_le _ _) (sum_bytes_le d rest), ih, hfits]

/-- No interval with traffic follows another one, the time before `new` among them, and the bytes
of each fit the variable of the loop. -/
def Direction.Parted (start : Readings) (rs : List Readings) : Prop :=
  (∀ r ∈ rs, d.total r < 2 ^ 64) ∧
    (start :: rs).IsChain (fun a b => d.bytes a = 0 ∨ d.bytes b = 0)

/-- The reports of a run add up to its traffic exactly when silence parts all its traffic. -/
theorem traffic_adds_up_between_silences (start : Readings)
    (calls : List (Metadata × Readings)) :
    (((MetricsCollector.new start).collects calls).map (fun m => (d.reported m).toNat)).sum =
        (calls.map (fun call => d.total call.2)).sum ↔
      d.Parted start (calls.map Prod.snd) := by
  rw [reported_collects, last_new]
  have hchain : ((d.bytes start).toNat ::
      calls.map (fun call => (d.bytes call.2).toNat)).IsChain (fun a b => a = 0 ∨ b = 0) ↔
      (start :: calls.map Prod.snd).IsChain (fun a b => d.bytes a = 0 ∨ d.bytes b = 0) := by
    rw [← map_bytes, List.isChain_map]
    simp only [← UInt64.toNat_inj, UInt64.toNat_zero]
  have hreported := sum_deltas_le (d.bytes start).toNat
    (calls.map (fun call => (d.bytes call.2).toNat))
  have hkept : (calls.map (fun call => (d.bytes call.2).toNat)).sum ≤
      (calls.map (fun call => d.total call.2)).sum := sum_bytes_le d calls
  unfold Direction.Parted
  rw [List.forall_mem_map, ← hchain, ← sum_deltas_eq_iff, ← sum_bytes_eq_iff]
  omega

end Traffic

/-- A machine with one interface that received `n` bytes. -/
def received (n : UInt64) : Readings := { (default : Readings) with networks := [⟨n, 0⟩] }

/-- Of two equal intervals with traffic the reports hold the first one only. -/
theorem steady_traffic_is_reported_once :
    ¬ ∀ (start : Readings) (calls : List (Metadata × Readings)) (d : Direction),
      (((MetricsCollector.new start).collects calls).map (fun m => (d.reported m).toNat)).sum =
        (calls.map (fun call => d.total call.2)).sum := by
  intro h
  have hsteady := h (received 0) [(default, received 100), (default, received 100)] .rx
  rw [reported_collects] at hsteady
  revert hsteady
  decide

end EdgeGateway.Metrics
