import LoadGenerator.Configuration.Environment
import LoadGenerator.Proofs.Text.Numerals

/-!
# What the sources of a configuration say

The variables of a process and the entries of a file each override settings, one by one and by the same rule: what the source says, or the present value where it says nothing. What they may say is stated on its own here, and reading them comes to just that.
-/

namespace LoadGenerator

/-! ## Words -/

namespace Text

theorem toNat_toLower (c : Char) : c.toLower.toNat = if 65 ≤ c.toNat ∧ c.toNat ≤ 90 then c.toNat + 32 else c.toNat := by
  unfold Char.toLower
  simp only [ge_iff_le, UInt32.le_iff_toNat_le, Char.toNat_val]
  split_ifs with h h' h'
  · change (c.val + 32).toNat = c.toNat + 32
    rw [UInt32.toNat_add, Char.toNat_val]
    exact Nat.mod_eq_of_lt (by change c.toNat + 32 < 4294967296; omega)
  · exact absurd h h'
  · exact absurd h' h
  · rfl

theorem toNat_toUpper (c : Char) : c.toUpper.toNat = if 97 ≤ c.toNat ∧ c.toNat ≤ 122 then c.toNat - 32 else c.toNat := by
  unfold Char.toUpper
  simp only [UInt32.le_iff_toNat_le, Char.toNat_val]
  split_ifs with h h' h'
  · -- The difference of the two cases is taken modulo the size of a word.
    change (c.val + 4294967264).toNat = c.toNat - 32
    rw [UInt32.toNat_add, Char.toNat_val]
    change (c.toNat + 4294967264) % 4294967296 = c.toNat - 32
    omega
  · exact absurd h h'
  · exact absurd h' h
  · rfl

/-- The word has the letters of the name, each in either case. -/
def Spells (word name : String) : Prop := List.Forall₂ (fun c d => c = d ∨ c = d.toUpper) word.toList name.toList

theorem toLower_eq_iff {c d : Char} (hd : 97 ≤ d.toNat ∧ d.toNat ≤ 122) : c.toLower = d ↔ c = d ∨ c = d.toUpper := by
  simp only [← Char.toNat_inj, toNat_toLower, toNat_toUpper]
  split_ifs <;> omega

theorem map_toLower_eq_iff {word name : List Char} (hname : ∀ d ∈ name, 97 ≤ d.toNat ∧ d.toNat ≤ 122) :
    word.map Char.toLower = name ↔ List.Forall₂ (fun c d => c = d ∨ c = d.toUpper) word name := by
  induction name generalizing word with
  | nil => simp
  | cons d name ih =>
    obtain ⟨hd, hname⟩ := List.forall_mem_cons.mp hname
    cases word with
    | nil => simp
    | cons c word => rw [List.map_cons, List.cons_eq_cons, List.forall₂_cons, toLower_eq_iff hd, ih hname]

theorem toLower_eq_iff_spells {word name : String} (hname : (name.toList.all fun d => 97 ≤ d.toNat ∧ d.toNat ≤ 122) = true) :
    word.toLower = name ↔ Spells word name := by
  rw [← String.toList_inj, show word.toLower.toList = word.toList.map Char.toLower from String.toList_map]
  exact map_toLower_eq_iff fun d hd => of_decide_eq_true (List.all_eq_true.mp hname d hd)

end Text

namespace LogFormat

def name : LogFormat → String
  | pretty => "pretty"
  | json => "json"

theorem ofName?_eq_some_iff {word : String} {format : LogFormat} : ofName? word = some format ↔ word = format.name := by
  unfold ofName?
  split_ifs with hpretty hjson <;> cases format <;> simp_all [name]

/-- The names that a variable may use, in any mixture of cases. -/
def IsSpelledBy (format : LogFormat) (word : String) : Prop := Text.Spells word format.name ∨ format = pretty ∧ Text.Spells word "text"

theorem ofWord?_eq_some_iff {word : String} {format : LogFormat} : ofWord? word = some format ↔ format.IsSpelledBy word := by
  have htext : word.toLower = "text" ↔ Text.Spells word "text" := Text.toLower_eq_iff_spells (by decide)
  have hname : word.toLower = format.name ↔ Text.Spells word format.name := Text.toLower_eq_iff_spells (by cases format <;> decide)
  rw [ofWord?, IsSpelledBy, ← htext, ← hname]
  split_ifs with h
  · rw [h, Option.some_inj]
    cases format <;> simp [name]
  · simp [ofName?_eq_some_iff, h]

end LogFormat

namespace Configuration

/-! ## One setting from two sources -/

/-- What a setting comes to: what its source says of it, or the present value where the source says nothing. -/
inductive Overrides (source : String → Option β) (key : String) (Says : β → α → Prop) (present : α) : α → Prop
  | unset (h : source key = none) : Overrides source key Says present present
  | set {said : β} {value : α} (h : source key = some said) (hspells : Says said value) : Overrides source key Says present value

section

variable {source : String → Option β} {key : String} {Says : β → α → Prop} {present value : α}

theorem overrides_iff_of_none (h : source key = none) : Overrides source key Says present value ↔ value = present := by
  constructor
  · rintro (_ | ⟨hset, -⟩)
    · rfl
    · rw [h] at hset
      cases hset
  · rintro rfl
    exact .unset h

theorem overrides_iff_of_some {said : β} (h : source key = some said) : Overrides source key Says present value ↔ Says said value := by
  constructor
  · rintro (hunset | ⟨hset, hspells⟩)
    · rw [h] at hunset
      cases hunset
    · rw [h] at hset
      exact Option.some_inj.mp hset ▸ hspells
  · exact .set h

theorem Overrides.congr_source {source' : String → Option β} (hsource : source key = source' key)
    (h : Overrides source key Says present value) : Overrides source' key Says present value := by
  cases h with
  | unset hunset => exact .unset (hsource ▸ hunset)
  | set h hspells => exact .set (hsource ▸ h) hspells

theorem Overrides.unique (hfunctional : ∀ said v v', Says said v → Says said v' → v = v') {value' : α}
    (h : Overrides source key Says present value) (h' : Overrides source key Says present value') : value = value' := by
  cases h with
  | unset hunset => exact ((overrides_iff_of_none hunset).mp h').symm
  | set h hspells => exact hfunctional _ _ _ hspells ((overrides_iff_of_some h).mp h')

end

theorem bind_eq_ok_iff {x : Except ε α} {f : α → Except ε β} {b : β} : x >>= f = .ok b ↔ ∃ a, x = .ok a ∧ f a = .ok b := by
  cases x with
  | error e => simp [bind, Except.bind]
  | ok a => simp [bind, Except.bind]

theorem bind_eq_error_iff {x : Except ε α} {f : α → Except ε β} {e : ε} :
    x >>= f = .error e ↔ x = .error e ∨ ∃ a, x = .ok a ∧ f a = .error e := by
  cases x with
  | error e => simp [bind, Except.bind]
  | ok a => simp [bind, Except.bind]

/-! ## Variables -/

/-- What the variable of a format says: its name, blanks around it left out. -/
def SaysFormat (text : String) (format : LogFormat) : Prop := format.IsSpelledBy (Text.trim text)

def SaysUnsigned (text : String) (n : UInt64) : Prop := Text.WritesNatural (Text.trim text) n.toNat

def SaysSigned (text : String) (n : Int32) : Prop := Text.WritesInteger (Text.trim text) n.toInt

/-- An empty text says that there is no folder. -/
def SaysFolder (text : String) (folder : Option String) : Prop := folder = if text = "" then none else some text

section

variable {env : Environment} {key : String} {take : String → Option α} {Says : String → α → Prop} {present value : α} {e : ConfigurationError}

theorem setting_eq_ok_iff (hspells : ∀ text v, take (Text.trim text) = some v ↔ Says text v) :
    setting env key take present = .ok value ↔ Overrides env key Says present value := by
  unfold setting
  cases henv : env key with
  | none => rw [overrides_iff_of_none henv, Except.ok.injEq, eq_comm]
  | some text =>
    rw [overrides_iff_of_some henv, ← hspells]
    dsimp only
    cases take (Text.trim text) <;> simp

theorem setting_eq_error_iff (hspells : ∀ text v, take (Text.trim text) = some v ↔ Says text v) :
    setting env key take present = .error e ↔ ∃ text, env key = some text ∧ (∀ v, ¬ Says text v) ∧ e = .invalidValue key text := by
  unfold setting
  cases henv : env key with
  | none => simp
  | some text =>
    simp only [Option.some_inj, exists_eq_left', ← hspells]
    cases take (Text.trim text) <;> simp [eq_comm]

theorem ofWord?_trim {text : String} {format : LogFormat} : LogFormat.ofWord? (Text.trim text) = some format ↔ SaysFormat text format :=
  LogFormat.ofWord?_eq_some_iff

theorem unsigned64?_trim {text : String} {n : UInt64} : Text.unsigned64? (Text.trim text) = some n ↔ SaysUnsigned text n :=
  Text.unsigned64?_eq_some_iff

theorem signed32?_trim {text : String} {n : Int32} : Text.signed32? (Text.trim text) = some n ↔ SaysSigned text n :=
  Text.signed32?_eq_some_iff

end

/-- The configuration has what the variables say, and the settings of the base where they say nothing. -/
structure Merges (env : Environment) (base c : Configuration) : Prop where
  rpcAddress : Overrides env "BURNER_RPC_ADDR" Eq base.rpcAddress c.rpcAddress
  metricsAddress : Overrides env "BURNER_METRICS_ADDR" Eq base.metricsAddress c.metricsAddress
  logFormat : Overrides env "BURNER_LOG_FORMAT" SaysFormat base.logFormat c.logFormat
  maxDurationMs : Overrides env "BURNER_MAX_DURATION_MS" SaysUnsigned base.maxDurationMs c.maxDurationMs
  maxAllocMb : Overrides env "BURNER_MAX_ALLOC_MB" SaysSigned base.maxAllocMb c.maxAllocMb
  maxParallelism : Overrides env "BURNER_MAX_PARALLELISM" SaysSigned base.maxParallelism c.maxParallelism
  scratchDirectory : Overrides env "BURNER_SCRATCH_DIR" SaysFolder base.scratchDirectory c.scratchDirectory
  serviceVersion : Overrides env "BURNER_SERVICE_VERSION" Eq base.serviceVersion c.serviceVersion

theorem overrides_eq_iff {env : Environment} {key present value : String} :
    Overrides env key Eq present value ↔ value = (env key).getD present := by
  cases henv : env key with
  | none => exact overrides_iff_of_none henv
  | some said => exact (overrides_iff_of_some henv).trans eq_comm

theorem overrides_saysFolder_iff {env : Environment} {key : String} {present value : Option String} :
    Overrides env key SaysFolder present value ↔ value = match env key with
      | none => present
      | some folder => if folder.isEmpty then none else some folder := by
  cases henv : env key with
  | none => exact overrides_iff_of_none henv
  | some said => simp [overrides_iff_of_some henv, SaysFolder]

theorem override_eq_ok_iff {env : Environment} {base c : Configuration} : base.override env = .ok c ↔ Merges env base c := by
  simp only [override, bind_eq_ok_iff, setting_eq_ok_iff fun _ _ => ofWord?_trim, setting_eq_ok_iff fun _ _ => unsigned64?_trim,
    setting_eq_ok_iff fun _ _ => signed32?_trim]
  constructor
  · rintro ⟨format, hformat, duration, hduration, allocMb, hallocMb, parallelism, hparallelism, hc⟩
    obtain rfl := Except.ok.inj hc
    exact ⟨overrides_eq_iff.mpr rfl, overrides_eq_iff.mpr rfl, hformat, hduration, hallocMb, hparallelism,
      overrides_saysFolder_iff.mpr rfl, overrides_eq_iff.mpr rfl⟩
  · intro h
    refine ⟨_, h.logFormat, _, h.maxDurationMs, _, h.maxAllocMb, _, h.maxParallelism, congrArg Except.ok ?_⟩
    rw [Configuration.mk.injEq, ← overrides_eq_iff.mp h.rpcAddress, ← overrides_eq_iff.mp h.metricsAddress,
      ← overrides_eq_iff.mp h.serviceVersion]
    exact ⟨rfl, rfl, rfl, rfl, rfl, rfl, (overrides_saysFolder_iff.mp h.scratchDirectory).symm, rfl⟩

/-! ## The file -/

/-- What a file says of a format: its name, alone or as the only key of a table with nothing inside. -/
def EntersFormat (v : TomlValue) (format : LogFormat) : Prop :=
  v = .string format.name ∨ v = .table [(format.name, .table [])] ∨ v = .table [(format.name, .array [])]

/-- The configuration has what the entries of a file say, and the standard settings where they say nothing. -/
structure Fills (entries : List (String × TomlValue)) (standard c : Configuration) : Prop where
  rpcAddress : Overrides (List.lookup · entries) "rpc_addr" (fun v s => v = .string s) standard.rpcAddress c.rpcAddress
  metricsAddress : Overrides (List.lookup · entries) "metrics_addr" (fun v s => v = .string s) standard.metricsAddress c.metricsAddress
  logFormat : Overrides (List.lookup · entries) "log_format" EntersFormat standard.logFormat c.logFormat
  maxDurationMs : Overrides (List.lookup · entries) "max_duration_ms" (fun v n => v = .integer n.toNat) standard.maxDurationMs c.maxDurationMs
  maxAllocMb : Overrides (List.lookup · entries) "max_alloc_mb" (fun v n => v = .integer n.toInt) standard.maxAllocMb c.maxAllocMb
  maxParallelism : Overrides (List.lookup · entries) "max_parallelism" (fun v n => v = .integer n.toInt) standard.maxParallelism c.maxParallelism
  scratchDirectory : Overrides (List.lookup · entries) "scratch_dir" (fun v d => ∃ s, v = .string s ∧ d = some s) standard.scratchDirectory
    c.scratchDirectory
  serviceVersion : Overrides (List.lookup · entries) "service_version" (fun v s => v = .string s) standard.serviceVersion c.serviceVersion

theorem string?_eq_some_iff {v : TomlValue} {s : String} : v.string? = some s ↔ v = .string s := by
  cases v <;> simp [TomlValue.string?]

theorem integerWithin?_eq_some_iff {v : TomlValue} {low high n : Int} :
    v.integerWithin? low high = some n ↔ v = .integer n ∧ low ≤ n ∧ n < high := by
  cases v with
  | integer m =>
    rw [TomlValue.integerWithin?, TomlValue.integer.injEq]
    split_ifs with h <;> simp <;> grind
  | _ => simp [TomlValue.integerWithin?]

theorem toml_unsigned64?_eq_some_iff {v : TomlValue} {n : UInt64} : v.unsigned64? = some n ↔ v = .integer n.toNat := by
  have hsize := n.toNat_lt_size
  rw [TomlValue.unsigned64?, Option.map_eq_some_iff]
  constructor
  · rintro ⟨m, hm, rfl⟩
    obtain ⟨rfl, hlow, hhigh⟩ := integerWithin?_eq_some_iff.mp hm
    rw [UInt64.toNat_ofNat_of_lt' (by omega), Int.toNat_of_nonneg hlow]
  · rintro rfl
    exact ⟨n.toNat, integerWithin?_eq_some_iff.mpr ⟨rfl, by omega, by omega⟩, by simp⟩

theorem toml_signed32?_eq_some_iff {v : TomlValue} {n : Int32} : v.signed32? = some n ↔ v = .integer n.toInt := by
  rw [TomlValue.signed32?, Option.map_eq_some_iff]
  constructor
  · rintro ⟨m, hm, rfl⟩
    obtain ⟨rfl, hlow, hhigh⟩ := integerWithin?_eq_some_iff.mp hm
    rw [Int32.toInt_ofInt_of_le hlow hhigh]
  · rintro rfl
    exact ⟨n.toInt, integerWithin?_eq_some_iff.mpr ⟨rfl, n.minValue_le_toInt, Int.lt_add_one_of_le n.toInt_le⟩, Int32.ofInt_toInt n⟩

theorem ofToml?_eq_some_iff {v : TomlValue} {format : LogFormat} : LogFormat.ofToml? v = some format ↔ EntersFormat v format := by
  unfold LogFormat.ofToml? EntersFormat
  split <;> simp_all [LogFormat.ofName?_eq_some_iff]

theorem entry_eq_some_iff {entries : List (String × TomlValue)} {key : String} {take : TomlValue → Option α} {Says : TomlValue → α → Prop}
    {standard value : α} (hspells : ∀ v a, take v = some a ↔ Says v a) :
    entry entries key take standard = some value ↔ Overrides (List.lookup · entries) key Says standard value := by
  unfold entry
  cases hentry : entries.lookup key with
  | none => rw [overrides_iff_of_none hentry, Option.some_inj, eq_comm]
  | some v => rw [overrides_iff_of_some hentry, ← hspells]

theorem ofEntries?_eq_some_iff {maxParallelism : Int32} {entries : List (String × TomlValue)} {c : Configuration} :
    ofEntries? maxParallelism entries = some c ↔ Fills entries (standard maxParallelism) c := by
  have hstring : ∀ v s, TomlValue.string? v = some s ↔ v = .string s := fun _ _ => string?_eq_some_iff
  have hfolder : ∀ (v : TomlValue) d, some <$> v.string? = some d ↔ ∃ s, v = .string s ∧ d = some s := by
    intro v d
    rw [Option.map_eq_map, Option.map_eq_some_iff]
    exact exists_congr fun s => and_congr string?_eq_some_iff eq_comm
  simp only [ofEntries?, Option.bind_eq_bind, Option.bind_eq_some_iff, entry_eq_some_iff hstring,
    entry_eq_some_iff fun _ _ => ofToml?_eq_some_iff, entry_eq_some_iff fun _ _ => toml_unsigned64?_eq_some_iff,
    entry_eq_some_iff fun _ _ => toml_signed32?_eq_some_iff, entry_eq_some_iff hfolder]
  constructor
  · rintro ⟨_, hrpc, _, hmetrics, _, hformat, _, hduration, _, hallocMb, _, hparallelism, _, hscratch, _, hversion, hc⟩
    obtain rfl := Option.some_inj.mp hc
    exact ⟨hrpc, hmetrics, hformat, hduration, hallocMb, hparallelism, hscratch, hversion⟩
  · intro h
    exact ⟨_, h.rpcAddress, _, h.metricsAddress, _, h.logFormat, _, h.maxDurationMs, _, h.maxAllocMb, _, h.maxParallelism, _,
      h.scratchDirectory, _, h.serviceVersion, rfl⟩

end Configuration

end LoadGenerator
