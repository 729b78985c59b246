-- The four telemetry tables. Each is the columns of its `create_table_*`,
-- the list of its `insert_*` with what is bound, and the names that the
-- derived `FromRow` of its struct reads; the law says whether they agree.
import EdgeGateway.Lib.Sql
import EdgeGateway.Message.Domain

namespace EdgeGateway.Database

open EdgeGateway.Lib.Sql EdgeGateway.Message

/-- `LIMIT` of `pop_batch_generic`. -/
def limit : Nat := 10

/-! ## Values -/

/-- A value as it is bound. The affinity of a column does not change it. -/
inductive Value where
  | text (s : String)
  | integer (n : Int)
  | real (x : F32)
  deriving Repr, DecidableEq

namespace Value

def toI64 : Value → Option Int64
  | .integer n => if n = (Int64.ofInt n).toInt then some (Int64.ofInt n) else none
  | _ => none

def toU32 : Value → Option UInt32
  | .integer n => if n = (UInt32.ofNat n.toNat).toNat then some (UInt32.ofNat n.toNat) else none
  | _ => none

def toU16 : Value → Option UInt16
  | .integer n => if n = (UInt16.ofNat n.toNat).toNat then some (UInt16.ofNat n.toNat) else none
  | _ => none

def toString : Value → Option String
  | .text s => some s
  | _ => none

def toF32 : Value → Option F32
  | .real x => some x
  | _ => none

end Value

/-! ## The tables -/

def notNull (name : String) : Column := { name, notNull := true }

/-- The names that the flattened `Metadata` of a struct reads. -/
def metadataFields : List String := ["sender_user_id", "destination_id", "timestamp"]

def Metadata.build (sender destination timestamp : Value) : Option Metadata := do
  return { senderUserId := ← sender.toString, destinationId := ← destination.toString
           timestamp := ← timestamp.toI64 }

/-- What every insertion binds first. -/
def bindMetadata {τ : Type} (metadata : τ → Metadata) : List (String × (τ → Value)) :=
  [("sender_user_id", fun data => .text (metadata data).senderUserId),
    ("destination_id", fun data => .text (metadata data).destinationId),
    ("timestamp", fun data => .integer (metadata data).timestamp.toInt)]

def measurement : Table Measurement Value where
  columns := (metadataFields ++ ["network_id", "pulse_counter", "temperature", "humidity",
    "air_quality", "sample"]).map notNull
  inserts := bindMetadata Measurement.metadata ++
    [("network_id", fun (data : Measurement) => .text data.network),
      ("pulse_counter", fun data => .real data.pulseCounter),
      ("temperature", fun data => .real data.temperature),
      ("humidity", fun data => .real data.humidity),
      ("air_quality", fun data => .real data.airQuality),
      ("sample", fun data => .integer data.sample.toNat)]
  reads := metadataFields ++ ["network", "pulse_counter", "temperature", "humidity", "air_quality",
    "sample"]
  build
    | [s, d, t, network, pulseCounter, temperature, humidity, airQuality, sample] => do
      return { metadata := ← Metadata.build s d t, network := ← network.toString
               pulseCounter := ← pulseCounter.toF32, temperature := ← temperature.toF32
               humidity := ← humidity.toF32, airQuality := ← airQuality.toF32
               sample := ← sample.toU16 }
    | _ => none

def monitor : Table Monitor Value where
  columns := (metadataFields ++ ["network_id", "heap_free", "heap_min_free", "heap_largest_block",
    "uptime_sec"]).map notNull
  inserts := bindMetadata Monitor.metadata ++
    [("network_id", fun (data : Monitor) => .text data.network),
      ("heap_free", fun data => .integer data.heapFree.toNat),
      ("heap_min_free", fun data => .integer data.heapMinFree.toNat),
      ("heap_largest_block", fun data => .integer data.heapLargestBlock.toNat),
      ("uptime_sec", fun data => .integer data.uptimeSec.toInt)]
  reads := metadataFields ++ ["network", "heap_free", "heap_min_free", "heap_largest_block",
    "uptime_sec"]
  build
    | [s, d, t, network, heapFree, heapMinFree, heapLargestBlock, uptimeSec] => do
      return { metadata := ← Metadata.build s d t, network := ← network.toString
               heapFree := ← heapFree.toU32, heapMinFree := ← heapMinFree.toU32
               heapLargestBlock := ← heapLargestBlock.toU32, uptimeSec := ← uptimeSec.toI64 }
    | _ => none

def alertTemp : Table AlertTh Value where
  columns := (metadataFields ++ ["initial_temp", "actual_temp"]).map notNull
  inserts := bindMetadata AlertTh.metadata ++
    [("network_id", fun (data : AlertTh) => .text data.network),
      ("initial_temp", fun data => .real data.initialTemp),
      ("actual_temp", fun data => .real data.actualTemp)]
  reads := metadataFields ++ ["network", "initial_temp", "actual_temp"]
  build
    | [s, d, t, network, initialTemp, actualTemp] => do
      return { metadata := ← Metadata.build s d t, network := ← network.toString
               initialTemp := ← initialTemp.toF32, actualTemp := ← actualTemp.toF32 }
    | _ => none

def alertAir : Table AlertAir Value where
  columns := (metadataFields ++ ["initial_air_quality", "actual_air_quality"]).map notNull
  inserts := bindMetadata AlertAir.metadata ++
    [("network_id", fun (data : AlertAir) => .text data.network),
      ("initial_air_quality", fun data => .real data.initialAirQuality),
      ("actual_air_quality", fun data => .real data.actualAirQuality)]
  reads := metadataFields ++ ["network", "initial_air_quality", "actual_air_quality"]
  build
    | [s, d, t, network, initialAirQuality, actualAirQuality] => do
      return { metadata := ← Metadata.build s d t, network := ← network.toString
               initialAirQuality := ← initialAirQuality.toF32
               actualAirQuality := ← actualAirQuality.toF32 }
    | _ => none

/-! ## The law -/

/-- The readings are in a column that no reader asks for, and the alerts
name a column that is not declared: each table gives back what was inserted
exactly when nothing was. -/
theorem tables_give_back_nothing_that_was_inserted (readings : List (List Measurement))
    (reports : List (List Monitor)) (temperatures : List (List AlertTh))
    (airs : List (List AlertAir)) :
    (RoundTrip measurement limit readings ↔ readings.flatten = []) ∧
    (RoundTrip monitor limit reports ↔ reports.flatten = []) ∧
    (RoundTrip alertTemp limit temperatures ↔ temperatures.flatten = []) ∧
    (RoundTrip alertAir limit airs ↔ airs.flatten = []) := by
  have hlimit : 0 < limit := by decide
  refine ⟨?_, ?_, ?_, ?_⟩
  · apply roundTrip_of_missing measurement hlimit (c := "network")
    · decide
    · decide
  · apply roundTrip_of_missing monitor hlimit (c := "network")
    · decide
    · decide
  · apply roundTrip_of_refused alertTemp hlimit
    decide
  · apply roundTrip_of_refused alertAir hlimit
    decide

/-- A reading that is stored and cannot be read back. -/
def sampleMeasurement : Measurement :=
  { metadata := ⟨"h", "edge", 0⟩, network := "n", pulseCounter := ⟨0⟩, temperature := ⟨0⟩
    humidity := ⟨0⟩, airQuality := ⟨0⟩, sample := 1 }

theorem a_stored_reading_is_not_read_back :
    ¬ ∀ batches : List (List Measurement), RoundTrip measurement limit batches := by
  intro h
  obtain ⟨s, hs, hpop⟩ := h [[sampleMeasurement]]
  have h1 := (hpop 1).1
  rw [show measurement.insertAll Store.new [[sampleMeasurement]] =
    some (Store.new.append [measurement.record sampleMeasurement]) from rfl,
    Option.some.injEq] at hs
  subst hs
  revert h1
  decide

end EdgeGateway.Database
