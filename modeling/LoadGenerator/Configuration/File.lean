import LoadGenerator.Configuration.Basic
import LoadGenerator.Text.Utf8
import LoadGenerator.Toml.Document

/-!
# Configuration files

A configuration file is a TOML document. A key that it leaves out keeps its standard value, and a key that means nothing here is skipped.
-/

namespace LoadGenerator

namespace LogFormat

def ofName? (name : String) : Option LogFormat :=
  if name = "pretty" then some pretty else if name = "json" then some json else none

/-- A format by its name, or by a table with the name as its only key and nothing inside. -/
def ofToml? : TomlValue → Option LogFormat
  | .string name => ofName? name
  | .table [(name, .table [])] => ofName? name
  | .table [(name, .array [])] => ofName? name
  | _ => none

end LogFormat

namespace TomlValue

def string? : TomlValue → Option String
  | string s => some s
  | _ => none

/-- An integer from `low` up to, but not including, `high`. -/
def integerWithin? (low high : Int) : TomlValue → Option Int
  | integer n => if low ≤ n ∧ n < high then some n else none
  | _ => none

def unsigned64? (v : TomlValue) : Option UInt64 := (v.integerWithin? 0 UInt64.size).map fun n => UInt64.ofNat n.toNat

def signed32? (v : TomlValue) : Option Int32 :=
  (v.integerWithin? Int32.minValue.toInt (Int32.maxValue.toInt + 1)).map Int32.ofInt

end TomlValue

namespace Configuration

/-- What stands at a key, the standard value where nothing does, and nothing where another kind of value does. -/
def entry (entries : List (String × TomlValue)) (key : String) (take : TomlValue → Option α) (standard : α) : Option α :=
  match entries.lookup key with
  | none => some standard
  | some v => take v

def ofEntries? (maxParallelism : Int32) (entries : List (String × TomlValue)) : Option Configuration := do
  let c := standard maxParallelism
  return {
    rpcAddress := ← entry entries "rpc_addr" TomlValue.string? c.rpcAddress
    metricsAddress := ← entry entries "metrics_addr" TomlValue.string? c.metricsAddress
    logFormat := ← entry entries "log_format" LogFormat.ofToml? c.logFormat
    maxDurationMs := ← entry entries "max_duration_ms" TomlValue.unsigned64? c.maxDurationMs
    maxAllocMb := ← entry entries "max_alloc_mb" TomlValue.signed32? c.maxAllocMb
    maxParallelism := ← entry entries "max_parallelism" TomlValue.signed32? c.maxParallelism
    scratchDirectory := ← entry entries "scratch_dir" (fun v => some <$> v.string?) c.scratchDirectory
    serviceVersion := ← entry entries "service_version" TomlValue.string? c.serviceVersion }

/-- The files that a configuration may come from: the bytes at a path, or the reason why there are none. -/
abbrev Files := String → Except String (List UInt8)

def Files.text (files : Files) (path : String) : Except ConfigurationError String :=
  match files path with
  | .error reason => .error (.unreadable path reason)
  | .ok bytes =>
    match Utf8.decode bytes with
    | .error _ => .error (.unreadable path "stream did not contain valid UTF-8")
    | .ok cs => .ok (String.ofList cs)

def ofFile (maxParallelism : Int32) (files : Files) (path : String) : Except ConfigurationError Configuration := do
  let text ← files.text path
  match (Toml.parse? text).bind (ofEntries? maxParallelism) with
  | some configuration => .ok configuration
  | none => .error (.unparsable path)

end Configuration

end LoadGenerator
