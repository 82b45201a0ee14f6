import LoadGenerator.Proofs.Configuration.Sources

/-!
# Loading a configuration

A configuration is merged from three sources: each setting is what its variable says, else what the file says, else the standard value. Only the ceilings that result are checked. So loading can go wrong in seven places, of which the first is reported, a variable reaches no setting but its own, and a file does no harm with a ceiling that a variable overrides.
-/

namespace LoadGenerator.Configuration

section

variable (maxParallelism : Int32) (files : Files) (env : Environment)

/-! ## The configuration that is overridden -/

/-- The environment names a file. An empty name names none. -/
def NamesFile (path : String) : Prop := env "BURNER_CONFIG" = some path ∧ path ≠ ""

/-- The file can be read, and it holds the text. -/
def HoldsText (path text : String) : Prop := ∃ bytes, files path = .ok bytes ∧ Utf8.decode bytes = .ok text.toList

/-- The text is a document of the settings. -/
def Describes (text : String) (c : Configuration) : Prop := ∃ entries, Toml.parse? text = some entries ∧ Fills entries (standard maxParallelism) c

/-- The configuration before the variables override it: that of the file that the environment names, or the standard one. -/
inductive Base : Configuration → Prop
  | standard (hunnamed : ∀ path, ¬ NamesFile env path) : Base (standard maxParallelism)
  | file {path text : String} {c : Configuration} (hnamed : NamesFile env path) (htext : HoldsText files path text)
      (hdescribes : Describes maxParallelism text c) : Base c

/-- The configuration that the variables override, as loading comes to it. -/
def start : Except ConfigurationError Configuration :=
  match namedFile env with
  | some path => ofFile maxParallelism files path
  | none => .ok (standard maxParallelism)

theorem load_eq : load maxParallelism files env =
    start maxParallelism files env >>= fun base => base.override env >>= fun c => c.check >>= fun _ => pure c := by
  unfold load start
  cases namedFile env <;> rfl

end

section

variable {maxParallelism : Int32} {files : Files} {env : Environment} {path text : String} {base c : Configuration} {e : ConfigurationError}

theorem namedFile_eq_some_iff : namedFile env = some path ↔ NamesFile env path := by
  simp [namedFile, NamesFile, Option.filter_eq_some_iff]

theorem namedFile_eq_none_iff : namedFile env = none ↔ ∀ path, ¬ NamesFile env path := by
  simp only [Option.eq_none_iff_forall_ne_some, ne_eq, namedFile_eq_some_iff]

theorem NamesFile.unique {path' : String} (h : NamesFile env path) (h' : NamesFile env path') : path = path' :=
  Option.some_inj.mp (h.1.symm.trans h'.1)

theorem text_eq_ok_iff : files.text path = .ok text ↔ HoldsText files path text := by
  unfold Files.text HoldsText
  cases files path with
  | error reason => simp
  | ok bytes => cases hdecoded : Utf8.decode bytes <;> simp [hdecoded, ← String.toList_inj]

theorem text_eq_error_iff : files.text path = .error e ↔ (∃ reason, files path = .error reason ∧ e = .unreadable path reason) ∨
    ∃ bytes, files path = .ok bytes ∧ (∀ text : String, Utf8.decode bytes ≠ .ok text.toList) ∧
      e = .unreadable path "stream did not contain valid UTF-8" := by
  unfold Files.text
  cases files path with
  | error reason => simp [eq_comm]
  | ok bytes =>
    cases hdecoded : Utf8.decode bytes with
    | error malformed => simp [hdecoded, eq_comm]
    | ok cs =>
      have htext : ∃ text : String, cs = text.toList := ⟨String.ofList cs, String.toList_ofList.symm⟩
      simp [hdecoded, htext]

theorem describes_iff : (Toml.parse? text).bind (ofEntries? maxParallelism) = some c ↔ Describes maxParallelism text c := by
  simp only [Option.bind_eq_some_iff, ofEntries?_eq_some_iff, Describes]

theorem ofFile_eq_ok_iff : ofFile maxParallelism files path = .ok c ↔ ∃ text, HoldsText files path text ∧ Describes maxParallelism text c := by
  simp only [ofFile, bind_eq_ok_iff, text_eq_ok_iff, ← describes_iff]
  refine exists_congr fun text => and_congr_right fun _ => ?_
  cases (Toml.parse? text).bind (ofEntries? maxParallelism) <;> simp

theorem ofFile_eq_error_iff : ofFile maxParallelism files path = .error e ↔ files.text path = .error e ∨
    ∃ text, HoldsText files path text ∧ (∀ c, ¬ Describes maxParallelism text c) ∧ e = .unparsable path := by
  simp only [ofFile, bind_eq_error_iff, text_eq_ok_iff, ← describes_iff]
  refine or_congr_right (exists_congr fun text => and_congr_right fun _ => ?_)
  cases (Toml.parse? text).bind (ofEntries? maxParallelism) <;> simp [eq_comm]

theorem start_eq_ok_iff : start maxParallelism files env = .ok base ↔ Base maxParallelism files env base := by
  unfold start
  cases hnamed : namedFile env with
  | none =>
    have hunnamed := namedFile_eq_none_iff.mp hnamed
    rw [Except.ok.injEq]
    constructor
    · rintro rfl
      exact .standard hunnamed
    · rintro (_ | ⟨hnamed, -, -⟩)
      · rfl
      · exact absurd hnamed (hunnamed _)
  | some path =>
    have hnames := namedFile_eq_some_iff.mp hnamed
    refine ofFile_eq_ok_iff.trans ⟨?_, ?_⟩
    · rintro ⟨text, htext, hdescribes⟩
      exact .file hnames htext hdescribes
    · rintro (hunnamed | ⟨hnamed', htext, hdescribes⟩)
      · exact absurd hnames (hunnamed path)
      · rw [hnames.unique hnamed']
        exact ⟨_, htext, hdescribes⟩

theorem Base.unique {base' : Configuration} (h : Base maxParallelism files env base) (h' : Base maxParallelism files env base') :
    base = base' :=
  Except.ok.inj ((start_eq_ok_iff.mpr h).symm.trans (start_eq_ok_iff.mpr h'))

end

/-! ## What can go wrong -/

/-- The places where loading can go wrong, in the order in which it comes to them. -/
inductive Fault where
  | file
  | logFormat
  | maxDurationMs
  | maxAllocMb
  | maxParallelism
  | negativeAllocMb
  | negativeParallelism
  deriving DecidableEq

namespace Fault

def all : List Fault := [file, logFormat, maxDurationMs, maxAllocMb, maxParallelism, negativeAllocMb, negativeParallelism]

/-- The places that loading comes to before this one. -/
def before (fault : Fault) : List Fault := all.takeWhile (· ≠ fault)

end Fault

section

variable (maxParallelism : Int32) (files : Files) (env : Environment)

/-- What goes wrong in a place, each on its own, and what is reported of it. The ceilings are those that the variables leave. -/
inductive Occurs : Fault → ConfigurationError → Prop
  | unreadable {path reason : String} (hnamed : NamesFile env path) (hread : files path = .error reason) :
    Occurs .file (.unreadable path reason)
  | notText {path : String} {bytes : List UInt8} (hnamed : NamesFile env path) (hread : files path = .ok bytes)
      (hnone : ∀ text : String, Utf8.decode bytes ≠ .ok text.toList) :
    Occurs .file (.unreadable path "stream did not contain valid UTF-8")
  | unparsable {path text : String} (hnamed : NamesFile env path) (htext : HoldsText files path text)
      (hnone : ∀ c, ¬ Describes maxParallelism text c) :
    Occurs .file (.unparsable path)
  | logFormat {text : String} (hset : env "BURNER_LOG_FORMAT" = some text) (hnone : ∀ format, ¬ SaysFormat text format) :
    Occurs .logFormat (.invalidValue "BURNER_LOG_FORMAT" text)
  | maxDurationMs {text : String} (hset : env "BURNER_MAX_DURATION_MS" = some text) (hnone : ∀ n, ¬ SaysUnsigned text n) :
    Occurs .maxDurationMs (.invalidValue "BURNER_MAX_DURATION_MS" text)
  | maxAllocMb {text : String} (hset : env "BURNER_MAX_ALLOC_MB" = some text) (hnone : ∀ n, ¬ SaysSigned text n) :
    Occurs .maxAllocMb (.invalidValue "BURNER_MAX_ALLOC_MB" text)
  | maxParallelism {text : String} (hset : env "BURNER_MAX_PARALLELISM" = some text) (hnone : ∀ n, ¬ SaysSigned text n) :
    Occurs .maxParallelism (.invalidValue "BURNER_MAX_PARALLELISM" text)
  | negativeAllocMb {base : Configuration} {n : Int32} (hbase : Base maxParallelism files env base)
      (hceiling : Overrides env "BURNER_MAX_ALLOC_MB" SaysSigned base.maxAllocMb n) (hnegative : n < 0) :
    Occurs .negativeAllocMb (.invalidValue "max_alloc_mb" (toString n.toInt))
  | negativeParallelism {base : Configuration} {n : Int32} (hbase : Base maxParallelism files env base)
      (hceiling : Overrides env "BURNER_MAX_PARALLELISM" SaysSigned base.maxParallelism n) (hnegative : n < 0) :
    Occurs .negativeParallelism (.invalidValue "max_parallelism" (toString n.toInt))

/-- Something goes wrong in the place, and nothing before it. -/
structure OccursFirst (fault : Fault) (e : ConfigurationError) : Prop where
  occurs : Occurs maxParallelism files env fault e
  before : ∀ earlier ∈ fault.before, ∀ e', ¬ Occurs maxParallelism files env earlier e'

end

section

variable {maxParallelism : Int32} {files : Files} {env : Environment} {base c : Configuration} {fault : Fault} {e e' : ConfigurationError}

theorem occurs_file_iff : Occurs maxParallelism files env .file e ↔ start maxParallelism files env = .error e := by
  unfold start
  cases hnamed : namedFile env with
  | none =>
    refine iff_of_false (fun h => ?_) fun h => by cases h
    have hunnamed := namedFile_eq_none_iff.mp hnamed
    cases h with
    | unreadable hnames | notText hnames | unparsable hnames => exact hunnamed _ hnames
  | some path =>
    have hnames := namedFile_eq_some_iff.mp hnamed
    refine Iff.trans ?_ ofFile_eq_error_iff.symm
    rw [text_eq_error_iff]
    constructor
    · intro h
      cases h with
      | unreadable hnames' hread =>
        obtain rfl := hnames.unique hnames'
        exact .inl (.inl ⟨_, hread, rfl⟩)
      | notText hnames' hread hnone =>
        obtain rfl := hnames.unique hnames'
        exact .inl (.inr ⟨_, hread, hnone, rfl⟩)
      | unparsable hnames' htext hnone =>
        obtain rfl := hnames.unique hnames'
        exact .inr ⟨_, htext, hnone, rfl⟩
    · rintro ((⟨reason, hread, rfl⟩ | ⟨bytes, hread, hnone, rfl⟩) | ⟨text, htext, hnone, rfl⟩)
      · exact .unreadable hnames hread
      · exact .notText hnames hread hnone
      · exact .unparsable hnames htext hnone

theorem occurs_logFormat_iff (present : LogFormat) :
    Occurs maxParallelism files env .logFormat e ↔ setting env "BURNER_LOG_FORMAT" LogFormat.ofWord? present = .error e := by
  rw [setting_eq_error_iff fun _ _ => ofWord?_trim]
  constructor
  · rintro (_ | _ | _ | ⟨hset, hnone⟩)
    exact ⟨_, hset, hnone, rfl⟩
  · rintro ⟨text, hset, hnone, rfl⟩
    exact .logFormat hset hnone

theorem occurs_maxDurationMs_iff (present : UInt64) :
    Occurs maxParallelism files env .maxDurationMs e ↔ setting env "BURNER_MAX_DURATION_MS" Text.unsigned64? present = .error e := by
  rw [setting_eq_error_iff fun _ _ => unsigned64?_trim]
  constructor
  · rintro (_ | _ | _ | _ | ⟨hset, hnone⟩)
    exact ⟨_, hset, hnone, rfl⟩
  · rintro ⟨text, hset, hnone, rfl⟩
    exact .maxDurationMs hset hnone

theorem occurs_maxAllocMb_iff (present : Int32) :
    Occurs maxParallelism files env .maxAllocMb e ↔ setting env "BURNER_MAX_ALLOC_MB" Text.signed32? present = .error e := by
  rw [setting_eq_error_iff fun _ _ => signed32?_trim]
  constructor
  · intro h
    cases h with
    | maxAllocMb hset hnone => exact ⟨_, hset, hnone, rfl⟩
  · rintro ⟨text, hset, hnone, rfl⟩
    exact .maxAllocMb hset hnone

theorem occurs_maxParallelism_iff (present : Int32) :
    Occurs maxParallelism files env .maxParallelism e ↔ setting env "BURNER_MAX_PARALLELISM" Text.signed32? present = .error e := by
  rw [setting_eq_error_iff fun _ _ => signed32?_trim]
  constructor
  · intro h
    cases h with
    | maxParallelism hset hnone => exact ⟨_, hset, hnone, rfl⟩
  · rintro ⟨text, hset, hnone, rfl⟩
    exact .maxParallelism hset hnone

theorem saysSigned_unique (text : String) (n m : Int32) (h : SaysSigned text n) (h' : SaysSigned text m) : n = m :=
  Option.some_inj.mp ((signed32?_trim.mpr h).symm.trans (signed32?_trim.mpr h'))

theorem occurs_negativeAllocMb_iff {n : Int32} (hbase : Base maxParallelism files env base)
    (hceiling : Overrides env "BURNER_MAX_ALLOC_MB" SaysSigned base.maxAllocMb n) :
    Occurs maxParallelism files env .negativeAllocMb e ↔ n < 0 ∧ e = .invalidValue "max_alloc_mb" (toString n.toInt) := by
  constructor
  · intro h
    cases h with
    | negativeAllocMb hbase' hceiling' hnegative =>
      obtain rfl := hbase.unique hbase'
      obtain rfl := hceiling.unique saysSigned_unique hceiling'
      exact ⟨hnegative, rfl⟩
  · rintro ⟨hnegative, rfl⟩
    exact .negativeAllocMb hbase hceiling hnegative

theorem occurs_negativeParallelism_iff {n : Int32} (hbase : Base maxParallelism files env base)
    (hceiling : Overrides env "BURNER_MAX_PARALLELISM" SaysSigned base.maxParallelism n) :
    Occurs maxParallelism files env .negativeParallelism e ↔ n < 0 ∧ e = .invalidValue "max_parallelism" (toString n.toInt) := by
  constructor
  · intro h
    cases h with
    | negativeParallelism hbase' hceiling' hnegative =>
      obtain rfl := hbase.unique hbase'
      obtain rfl := hceiling.unique saysSigned_unique hceiling'
      exact ⟨hnegative, rfl⟩
  · rintro ⟨hnegative, rfl⟩
    exact .negativeParallelism hbase hceiling hnegative

/-- In one place one thing goes wrong at most. -/
theorem Occurs.unique (h : Occurs maxParallelism files env fault e) (h' : Occurs maxParallelism files env fault e') : e = e' := by
  cases fault with
  | file => exact Except.error.inj ((occurs_file_iff.mp h).symm.trans (occurs_file_iff.mp h'))
  | logFormat => exact Except.error.inj (((occurs_logFormat_iff .pretty).mp h).symm.trans ((occurs_logFormat_iff .pretty).mp h'))
  | maxDurationMs => exact Except.error.inj (((occurs_maxDurationMs_iff 0).mp h).symm.trans ((occurs_maxDurationMs_iff 0).mp h'))
  | maxAllocMb => exact Except.error.inj (((occurs_maxAllocMb_iff 0).mp h).symm.trans ((occurs_maxAllocMb_iff 0).mp h'))
  | maxParallelism => exact Except.error.inj (((occurs_maxParallelism_iff 0).mp h).symm.trans ((occurs_maxParallelism_iff 0).mp h'))
  | negativeAllocMb =>
    cases h with
    | negativeAllocMb hbase hceiling hnegative => exact ((occurs_negativeAllocMb_iff hbase hceiling).mp h').2.symm
  | negativeParallelism =>
    cases h with
    | negativeParallelism hbase hceiling hnegative => exact ((occurs_negativeParallelism_iff hbase hceiling).mp h').2.symm

theorem Fault.before_or_before (fault other : Fault) : fault = other ∨ fault ∈ other.before ∨ other ∈ fault.before := by
  cases fault <;> cases other <;> decide

theorem OccursFirst.unique {other : Fault} (h : OccursFirst maxParallelism files env fault e)
    (h' : OccursFirst maxParallelism files env other e') : e = e' := by
  rcases fault.before_or_before other with rfl | hbefore | hbefore
  · exact h.occurs.unique h'.occurs
  · exact absurd h.occurs (h'.before _ hbefore _)
  · exact absurd h'.occurs (h.before _ hbefore _)

/-! ## What loading comes to -/

theorem check_eq_ok_iff : c.check = .ok () ↔ ¬ c.maxAllocMb < 0 ∧ ¬ c.maxParallelism < 0 := by
  unfold check
  split_ifs <;> simp_all

theorem check_eq_error_iff : c.check = .error e ↔
    c.maxAllocMb < 0 ∧ e = .invalidValue "max_alloc_mb" (toString c.maxAllocMb.toInt) ∨
    ¬ c.maxAllocMb < 0 ∧ c.maxParallelism < 0 ∧ e = .invalidValue "max_parallelism" (toString c.maxParallelism.toInt) := by
  unfold check
  split_ifs <;> simp_all [eq_comm]

theorem load_eq_ok_iff : load maxParallelism files env = .ok c ↔
    ∃ base, Base maxParallelism files env base ∧ Merges env base c ∧ 0 ≤ c.maxAllocMb ∧ 0 ≤ c.maxParallelism := by
  simp only [load_eq, bind_eq_ok_iff, start_eq_ok_iff, override_eq_ok_iff]
  refine exists_congr fun base => and_congr_right fun _ => ?_
  constructor
  · rintro ⟨c', hmerges, ⟨⟩, hcheck, hc⟩
    obtain rfl := Except.ok.inj hc
    obtain ⟨halloc, hparallelism⟩ := check_eq_ok_iff.mp hcheck
    exact ⟨hmerges, Int32.not_lt.mp halloc, Int32.not_lt.mp hparallelism⟩
  · rintro ⟨hmerges, halloc, hparallelism⟩
    exact ⟨c, hmerges, (), check_eq_ok_iff.mpr ⟨Int32.not_lt.mpr halloc, Int32.not_lt.mpr hparallelism⟩, rfl⟩

/-- A place goes wrong no more than the step that is taken there. -/
theorem not_occurs_of_eq_ok {x : Except ConfigurationError α} {a : α} (hoccurs : ∀ e, Occurs maxParallelism files env fault e ↔ x = .error e)
    (h : x = .ok a) (e : ConfigurationError) : ¬ Occurs maxParallelism files env fault e := by
  rw [hoccurs, h]
  intro hne
  cases hne

theorem Base.not_occurs (h : Base maxParallelism files env base) : ∀ e, ¬ Occurs maxParallelism files env .file e :=
  not_occurs_of_eq_ok (fun _ => occurs_file_iff) (start_eq_ok_iff.mpr h)

section

variable {format format' : LogFormat} {duration duration' : UInt64} {n n' : Int32}

theorem Overrides.not_occurs_logFormat (h : Overrides env "BURNER_LOG_FORMAT" SaysFormat format format') :
    ∀ e, ¬ Occurs maxParallelism files env .logFormat e :=
  not_occurs_of_eq_ok (fun _ => occurs_logFormat_iff format) ((setting_eq_ok_iff fun _ _ => ofWord?_trim).mpr h)

theorem Overrides.not_occurs_maxDurationMs (h : Overrides env "BURNER_MAX_DURATION_MS" SaysUnsigned duration duration') :
    ∀ e, ¬ Occurs maxParallelism files env .maxDurationMs e :=
  not_occurs_of_eq_ok (fun _ => occurs_maxDurationMs_iff duration) ((setting_eq_ok_iff fun _ _ => unsigned64?_trim).mpr h)

theorem Overrides.not_occurs_maxAllocMb (h : Overrides env "BURNER_MAX_ALLOC_MB" SaysSigned n n') :
    ∀ e, ¬ Occurs maxParallelism files env .maxAllocMb e :=
  not_occurs_of_eq_ok (fun _ => occurs_maxAllocMb_iff n) ((setting_eq_ok_iff fun _ _ => signed32?_trim).mpr h)

theorem Overrides.not_occurs_maxParallelism (h : Overrides env "BURNER_MAX_PARALLELISM" SaysSigned n n') :
    ∀ e, ¬ Occurs maxParallelism files env .maxParallelism e :=
  not_occurs_of_eq_ok (fun _ => occurs_maxParallelism_iff n) ((setting_eq_ok_iff fun _ _ => signed32?_trim).mpr h)

end

/-- The variables override the base one after another, and the first that says nothing is reported. -/
theorem exists_occursFirst_of_override (hbase : Base maxParallelism files env base) (h : base.override env = .error e) :
    ∃ fault, OccursFirst maxParallelism files env fault e := by
  simp only [override, bind_eq_error_iff, setting_eq_ok_iff fun _ _ => ofWord?_trim, setting_eq_ok_iff fun _ _ => unsigned64?_trim,
    setting_eq_ok_iff fun _ _ => signed32?_trim] at h
  have hfile := hbase.not_occurs
  rcases h with hreport | ⟨format, hformat, hreport | ⟨duration, hduration, hreport | ⟨allocMb, hallocMb, hreport | ⟨_, _, hreport⟩⟩⟩⟩
  · exact ⟨.logFormat, (occurs_logFormat_iff _).mpr hreport, List.forall_mem_singleton.mpr hfile⟩
  · refine ⟨.maxDurationMs, (occurs_maxDurationMs_iff _).mpr hreport, ?_⟩
    exact List.forall_mem_cons.mpr ⟨hfile, List.forall_mem_singleton.mpr hformat.not_occurs_logFormat⟩
  · refine ⟨.maxAllocMb, (occurs_maxAllocMb_iff _).mpr hreport, ?_⟩
    exact List.forall_mem_cons.mpr ⟨hfile, List.forall_mem_cons.mpr ⟨hformat.not_occurs_logFormat,
      List.forall_mem_singleton.mpr hduration.not_occurs_maxDurationMs⟩⟩
  · refine ⟨.maxParallelism, (occurs_maxParallelism_iff _).mpr hreport, ?_⟩
    exact List.forall_mem_cons.mpr ⟨hfile, List.forall_mem_cons.mpr ⟨hformat.not_occurs_logFormat,
      List.forall_mem_cons.mpr ⟨hduration.not_occurs_maxDurationMs, List.forall_mem_singleton.mpr hallocMb.not_occurs_maxAllocMb⟩⟩⟩
  · cases hreport

/-- Where a file and the variables could be merged, nothing went wrong but what is wrong with the ceilings that result. -/
theorem Merges.not_occurs (hbase : Base maxParallelism files env base) (h : Merges env base c) :
    ∀ fault ∈ Fault.negativeAllocMb.before, ∀ e, ¬ Occurs maxParallelism files env fault e :=
  List.forall_mem_cons.mpr ⟨hbase.not_occurs, List.forall_mem_cons.mpr ⟨h.logFormat.not_occurs_logFormat,
    List.forall_mem_cons.mpr ⟨h.maxDurationMs.not_occurs_maxDurationMs, List.forall_mem_cons.mpr ⟨h.maxAllocMb.not_occurs_maxAllocMb,
    List.forall_mem_singleton.mpr h.maxParallelism.not_occurs_maxParallelism⟩⟩⟩⟩

theorem exists_occursFirst_of_check (hbase : Base maxParallelism files env base) (hmerges : Merges env base c) (h : c.check = .error e) :
    ∃ fault, OccursFirst maxParallelism files env fault e := by
  have hbefore := hmerges.not_occurs hbase
  rcases check_eq_error_iff.mp h with ⟨halloc, rfl⟩ | ⟨halloc, hparallelism, rfl⟩
  · exact ⟨.negativeAllocMb, .negativeAllocMb hbase hmerges.maxAllocMb halloc, hbefore⟩
  · have halloc' : ∀ e, ¬ Occurs maxParallelism files env .negativeAllocMb e := by
      intro e hoccurs
      exact halloc ((occurs_negativeAllocMb_iff hbase hmerges.maxAllocMb).mp hoccurs).1
    have hall : ∀ earlier ∈ Fault.negativeAllocMb.before ++ [.negativeAllocMb], ∀ e, ¬ Occurs maxParallelism files env earlier e :=
      List.forall_mem_append.mpr ⟨hbefore, List.forall_mem_singleton.mpr halloc'⟩
    exact ⟨.negativeParallelism, .negativeParallelism hbase hmerges.maxParallelism hparallelism, hall⟩

theorem exists_occursFirst_of_load (h : load maxParallelism files env = .error e) : ∃ fault, OccursFirst maxParallelism files env fault e := by
  simp only [load_eq, bind_eq_error_iff, start_eq_ok_iff, override_eq_ok_iff] at h
  rcases h with hfile | ⟨base, hbase, hoverride | ⟨c, hmerges, hcheck | ⟨_, _, hdone⟩⟩⟩
  · exact ⟨.file, occurs_file_iff.mpr hfile, List.forall_mem_nil _⟩
  · exact exists_occursFirst_of_override hbase hoverride
  · exact exists_occursFirst_of_check hbase hmerges hcheck
  · cases hdone

/-- A configuration that was loaded leaves nothing to report. -/
theorem not_occurs_of_load (h : load maxParallelism files env = .ok c) (fault : Fault) (e : ConfigurationError) :
    ¬ Occurs maxParallelism files env fault e := by
  obtain ⟨base, hbase, hmerges, halloc, hparallelism⟩ := load_eq_ok_iff.mp h
  cases fault with
  | negativeAllocMb =>
    intro hoccurs
    exact Int32.not_lt.mpr halloc ((occurs_negativeAllocMb_iff hbase hmerges.maxAllocMb).mp hoccurs).1
  | negativeParallelism =>
    intro hoccurs
    exact Int32.not_lt.mpr hparallelism ((occurs_negativeParallelism_iff hbase hmerges.maxParallelism).mp hoccurs).1
  | _ => exact hmerges.not_occurs hbase _ (by decide) e

theorem load_eq_error_iff : load maxParallelism files env = .error e ↔ ∃ fault, OccursFirst maxParallelism files env fault e := by
  refine ⟨exists_occursFirst_of_load, ?_⟩
  rintro ⟨fault, hfirst⟩
  cases hload : load maxParallelism files env with
  | ok c => exact absurd hfirst.occurs (not_occurs_of_load hload fault e)
  | error e' =>
    obtain ⟨fault', hfirst'⟩ := exists_occursFirst_of_load hload
    rw [hfirst.unique hfirst']

/-- Loading gives a configuration just where nothing goes wrong. -/
theorem exists_load_iff : (∃ c, load maxParallelism files env = .ok c) ↔ ∀ fault e, ¬ Occurs maxParallelism files env fault e := by
  constructor
  · rintro ⟨c, hc⟩
    exact not_occurs_of_load hc
  · intro hnone
    cases hload : load maxParallelism files env with
    | ok c => exact ⟨c, rfl⟩
    | error e =>
      obtain ⟨fault, hfirst⟩ := exists_occursFirst_of_load hload
      exact absurd hfirst.occurs (hnone fault e)

end

/-! ## What one source reaches -/

section

variable {maxParallelism : Int32} {files files' : Files} {env env' : Environment} {base c c' : Configuration} {key : String}

/-- The configurations differ in the setting of this variable at most. -/
structure AgreesApartFrom (key : String) (c c' : Configuration) : Prop where
  rpcAddress : key ≠ "BURNER_RPC_ADDR" → c.rpcAddress = c'.rpcAddress
  metricsAddress : key ≠ "BURNER_METRICS_ADDR" → c.metricsAddress = c'.metricsAddress
  logFormat : key ≠ "BURNER_LOG_FORMAT" → c.logFormat = c'.logFormat
  maxDurationMs : key ≠ "BURNER_MAX_DURATION_MS" → c.maxDurationMs = c'.maxDurationMs
  maxAllocMb : key ≠ "BURNER_MAX_ALLOC_MB" → c.maxAllocMb = c'.maxAllocMb
  maxParallelism : key ≠ "BURNER_MAX_PARALLELISM" → c.maxParallelism = c'.maxParallelism
  scratchDirectory : key ≠ "BURNER_SCRATCH_DIR" → c.scratchDirectory = c'.scratchDirectory
  serviceVersion : key ≠ "BURNER_SERVICE_VERSION" → c.serviceVersion = c'.serviceVersion

theorem Base.congr (hsame : env' "BURNER_CONFIG" = env "BURNER_CONFIG") (h : Base maxParallelism files env base) :
    Base maxParallelism files env' base := by
  have hnames : ∀ path, NamesFile env' path ↔ NamesFile env path := by
    intro path
    rw [NamesFile, NamesFile, hsame]
  cases h with
  | standard hunnamed => exact .standard fun path => mt (hnames path).mp (hunnamed path)
  | file hnamed htext hdescribes => exact .file ((hnames _).mpr hnamed) htext hdescribes

/-- A setting over the same base is the same while its variable is, whatever becomes of the others. -/
theorem Overrides.eq_of_agree {α : Type} {other : String} {Says : String → α → Prop} {present value value' : α}
    (hfunctional : ∀ text v v', Says text v → Says text v' → v = v') (hsame : ∀ other, other ≠ key → env' other = env other)
    (h : Overrides env other Says present value) (h' : Overrides env' other Says present value') (hne : key ≠ other) : value = value' :=
  h.unique hfunctional (h'.congr_source (hsame other hne.symm))

theorem agreesApartFrom_of_load (hkey : key ≠ "BURNER_CONFIG") (hsame : ∀ other, other ≠ key → env' other = env other)
    (h : load maxParallelism files env = .ok c) (h' : load maxParallelism files env' = .ok c') : AgreesApartFrom key c c' := by
  obtain ⟨base, hbase, hmerges, -⟩ := load_eq_ok_iff.mp h
  obtain ⟨base', hbase', hmerges', -⟩ := load_eq_ok_iff.mp h'
  obtain rfl := hbase.unique (hbase'.congr (hsame _ hkey.symm).symm)
  have hword : ∀ text (s s' : String), text = s → text = s' → s = s' := fun _ _ _ hs hs' => hs.symm.trans hs'
  have hformat : ∀ text f f', SaysFormat text f → SaysFormat text f' → f = f' := fun _ _ _ hf hf' =>
    Option.some_inj.mp ((ofWord?_trim.mpr hf).symm.trans (ofWord?_trim.mpr hf'))
  have hduration : ∀ text n n', SaysUnsigned text n → SaysUnsigned text n' → n = n' := fun _ _ _ hn hn' =>
    Option.some_inj.mp ((unsigned64?_trim.mpr hn).symm.trans (unsigned64?_trim.mpr hn'))
  have hfolder : ∀ text d d', SaysFolder text d → SaysFolder text d' → d = d' := fun _ _ _ hd hd' => hd.trans hd'.symm
  exact {
    rpcAddress := hmerges.rpcAddress.eq_of_agree hword hsame hmerges'.rpcAddress
    metricsAddress := hmerges.metricsAddress.eq_of_agree hword hsame hmerges'.metricsAddress
    logFormat := hmerges.logFormat.eq_of_agree hformat hsame hmerges'.logFormat
    maxDurationMs := hmerges.maxDurationMs.eq_of_agree hduration hsame hmerges'.maxDurationMs
    maxAllocMb := hmerges.maxAllocMb.eq_of_agree saysSigned_unique hsame hmerges'.maxAllocMb
    maxParallelism := hmerges.maxParallelism.eq_of_agree saysSigned_unique hsame hmerges'.maxParallelism
    scratchDirectory := hmerges.scratchDirectory.eq_of_agree hfolder hsame hmerges'.scratchDirectory
    serviceVersion := hmerges.serviceVersion.eq_of_agree hword hsame hmerges'.serviceVersion }

/-- A variable that is set hides the present value. -/
theorem setting_congr {take : String → Option α} {present present' : α} (h : env key = none → present' = present) :
    setting env key take present' = setting env key take present := by
  unfold setting
  cases henv : env key with
  | none => rw [h henv]
  | some text => rfl

theorem override_congr {allocMb parallelism : Int32} (halloc : env "BURNER_MAX_ALLOC_MB" = none → allocMb = base.maxAllocMb)
    (hparallelism : env "BURNER_MAX_PARALLELISM" = none → parallelism = base.maxParallelism) :
    override env { base with maxAllocMb := allocMb, maxParallelism := parallelism } = override env base := by
  unfold override
  rw [setting_congr halloc, setting_congr hparallelism]

/-- Ceilings that variables override are of no account where loading starts from. -/
theorem load_eq_of_ceilings {allocMb parallelism : Int32} (hbase : Base maxParallelism files env base)
    (hbase' : Base maxParallelism files' env { base with maxAllocMb := allocMb, maxParallelism := parallelism })
    (halloc : env "BURNER_MAX_ALLOC_MB" = none → allocMb = base.maxAllocMb)
    (hparallelism : env "BURNER_MAX_PARALLELISM" = none → parallelism = base.maxParallelism) :
    load maxParallelism files' env = load maxParallelism files env := by
  rw [load_eq, load_eq, start_eq_ok_iff.mpr hbase, start_eq_ok_iff.mpr hbase']
  change (override env _ >>= _) = (override env base >>= _)
  rw [override_congr halloc hparallelism]

end

/-- Loading gives the configuration in which each setting is what its variable says, else what the file says, else the standard value, provided that its ceilings are not negative. It gives one just where nothing goes wrong, and otherwise reports what goes wrong first. Another value of one variable, other than the name of the file, reaches its own setting alone, and ceilings that variables override come out the same whatever a file says of them. -/
theorem load_follows_sources (maxParallelism : Int32) (files : Files) (env : Environment) :
    (∀ c, load maxParallelism files env = .ok c ↔
      ∃ base, Base maxParallelism files env base ∧ Merges env base c ∧ 0 ≤ c.maxAllocMb ∧ 0 ≤ c.maxParallelism) ∧
    ((∃ c, load maxParallelism files env = .ok c) ↔ ∀ fault e, ¬ Occurs maxParallelism files env fault e) ∧
    (∀ e, load maxParallelism files env = .error e ↔ ∃ fault, OccursFirst maxParallelism files env fault e) ∧
    (∀ key env' c c', key ≠ "BURNER_CONFIG" → (∀ other, other ≠ key → env' other = env other) →
      load maxParallelism files env = .ok c → load maxParallelism files env' = .ok c' → AgreesApartFrom key c c') ∧
    ∀ files' base allocMb parallelism, Base maxParallelism files env base →
      Base maxParallelism files' env { base with maxAllocMb := allocMb, maxParallelism := parallelism } →
      (env "BURNER_MAX_ALLOC_MB" = none → allocMb = base.maxAllocMb) →
      (env "BURNER_MAX_PARALLELISM" = none → parallelism = base.maxParallelism) →
      load maxParallelism files' env = load maxParallelism files env := by
  refine ⟨fun c => load_eq_ok_iff, exists_load_iff, fun e => load_eq_error_iff, ?_, ?_⟩
  · intro key env' c c' hkey hsame hload hload'
    exact agreesApartFrom_of_load hkey hsame hload hload'
  · intro files' base allocMb parallelism hbase hbase' halloc hparallelism
    exact load_eq_of_ceilings hbase hbase' halloc hparallelism

/-- A file has a negative ceiling and a folder. One variable repairs the ceiling, as it does whatever the file says of it, and another takes the folder away. A ceiling of 7 instead of 64 changes nothing else. -/
theorem load_follows_sources_repaired :
    let file : Files := fun _ => .ok (Utf8.encode "max_alloc_mb = -5\nscratch_dir = '/tmp'".toList)
    let other : Files := fun _ => .ok (Utf8.encode "scratch_dir = '/tmp'".toList)
    let env : String → Environment := fun ceiling key =>
      [("BURNER_CONFIG", "burner.toml"), ("BURNER_MAX_ALLOC_MB", ceiling), ("BURNER_SCRATCH_DIR", "")].lookup key
    load 4 file (env " +064 ") = .ok { standard 4 with maxAllocMb := 64 } ∧
      load 4 other (env " +064 ") = load 4 file (env " +064 ") ∧
      ∃ c, load 4 file (env "7") = .ok c ∧ AgreesApartFrom "BURNER_MAX_ALLOC_MB" { standard 4 with maxAllocMb := 64 } c := by
  intro file other env
  have hbase : Base 4 file (env " +064 ") { standard 4 with maxAllocMb := -5, scratchDirectory := some "/tmp" } :=
    start_eq_ok_iff.mp (by decide +kernel)
  have hbase' : Base 4 other (env " +064 ") { standard 4 with scratchDirectory := some "/tmp" } := start_eq_ok_iff.mp (by decide +kernel)
  have hload : load 4 file (env " +064 ") = .ok { standard 4 with maxAllocMb := 64 } := by decide +kernel
  have hload' : load 4 file (env "7") = .ok { standard 4 with maxAllocMb := 7 } := by decide +kernel
  have hsame : ∀ other, other ≠ "BURNER_MAX_ALLOC_MB" → env "7" other = env " +064 " other := by
    intro other hother
    simp [env, List.lookup_cons, beq_eq_false_iff_ne.mpr hother]
  obtain ⟨-, -, -, hfield, hceilings⟩ := load_follows_sources 4 file (env " +064 ")
  refine ⟨hload, ?_, _, hload', hfield _ _ _ _ (by decide) hsame hload hload'⟩
  exact hceilings other _ 512 4 hbase hbase' (fun hunset => absurd hunset (by decide)) fun _ => rfl

end LoadGenerator.Configuration
