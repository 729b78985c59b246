-- The check of the broker before the gateway starts: `mtls.conf` is read line
-- by line and its settings are validated. Some settings take the last line
-- that gives them, the flags keep the first one that is right; the law says
-- of which files the last line still holds.
import Mathlib.Data.List.ReduceOption
import EdgeGateway.Lib.Text

namespace EdgeGateway.SystemCheck

open EdgeGateway.Lib

/-! ## Types -/

/-- The errors of the check, as far as `mtls.conf` can cause them. -/
inductive ErrorType where
  | mtlsConfig (text : String)
  | io
  deriving Repr, DecidableEq

structure Certs where
  cafile : Path
  certfile : Path
  keyfile : Path
  deriving Repr, DecidableEq, Inhabited

structure MtlsConfig where
  listener : Option UInt16
  tlsVersion : Option String
  certs : Certs
  requireCertificate : Bool
  useIdentityAsUsername : Bool
  allowAnonymous : Bool
  connectionMessages : Bool
  deriving Repr, DecidableEq

/-- What the file system says of a file. -/
structure Metadata where
  isFile : Bool
  len : UInt64
  mode : UInt32
  deriving Repr, DecidableEq

/-- `None` where `metadata` fails. -/
abbrev FileSystem := Path → Option Metadata

/-- The lines of a file, `None` where one cannot be read; no lines where the
file cannot be opened. -/
abbrev Lines := Option (List (Option String))

/-! ## Certificates -/

def checkCertFile (fs : FileSystem) (path : Path) (isPrivateKey : Bool) : Except ErrorType Unit :=
  match fs path with
  | none => .error .io
  | some metadata =>
    if !metadata.isFile then .error (.mtlsConfig "Error: Certificado mTLS inválido")
    else if metadata.len = 0 then .error (.mtlsConfig "Error: Certificado mTLS vacío")
    else if isPrivateKey && metadata.mode &&& 0o077 != 0 then
      .error (.mtlsConfig "Error: Permisos de clave privada inseguros")
    else .ok ()

def validateCertificateSet (fs : FileSystem) (certs : Certs) : Except ErrorType Unit := do
  checkCertFile fs certs.cafile false
  checkCertFile fs certs.certfile false
  checkCertFile fs certs.keyfile true
  if certs.cafile.same certs.certfile then
    throw (.mtlsConfig "Error: CA y cert son iguales")
  if certs.certfile.extension ≠ some "crt" then
    throw (.mtlsConfig "Error: extensión cert inválida")
  if certs.keyfile.extension ≠ some "key" then
    throw (.mtlsConfig "Error: extensión key inválida")

/-! ## `scan_mtls_config` -/

/-- A key and the word after it. -/
abbrev Directive := String × Option String

/-- The directive of a line; none on an empty line or a comment. -/
def directive (line : String) : Option Directive :=
  let line := trim line
  if line = "" || line.toList.head? = some '#' then none
  else
    match splitWhitespace line with
    | key :: rest => some (key, rest.head?)
    | [] => none

/-- A line that is no comment has a first word: the `unwrap` of the key never panics. -/
theorem directive_eq_none {line : String} :
    directive line = none ↔ trim line = "" ∨ (trim line).toList.head? = some '#' := by
  unfold directive
  by_cases h : trim line = "" ∨ (trim line).toList.head? = some '#'
  · simp [h]
  · obtain ⟨key, rest, hwords⟩ := List.exists_cons_of_ne_nil
      (splitWhitespace_trim_ne_nil (fun hempty => h (.inl hempty)))
    simp [h, hwords]

/-- The arms of the match over key and value. -/
def MtlsConfig.set (cfg : MtlsConfig) : Directive → MtlsConfig
  | ("listener", some p) => { cfg with listener := parseU16 p }
  | ("tls_version", some p) => { cfg with tlsVersion := some p }
  | ("cafile", some p) => { cfg with certs := { cfg.certs with cafile := ⟨p⟩ } }
  | ("certfile", some p) => { cfg with certs := { cfg.certs with certfile := ⟨p⟩ } }
  | ("keyfile", some p) => { cfg with certs := { cfg.certs with keyfile := ⟨p⟩ } }
  | ("require_certificate", some "true") => { cfg with requireCertificate := true }
  | ("use_identity_as_username", some "true") => { cfg with useIdentityAsUsername := true }
  | ("allow_anonymous", some "false") => { cfg with allowAnonymous := false }
  | ("connection_messages", some "true") => { cfg with connectionMessages := true }
  | _ => cfg

/-- The loop over the lines. -/
def scanLines (cfg : MtlsConfig) : List (Option String) → Except ErrorType MtlsConfig
  | [] => .ok cfg
  | none :: _ => .error .io
  | some line :: rest =>
    match directive line with
    | none => scanLines cfg rest
    | some d => scanLines (cfg.set d) rest

def scanMtlsConfig (lines : Lines) (cfg : MtlsConfig) : Except ErrorType MtlsConfig :=
  match lines with
  | none => .error (.mtlsConfig "Error: No se pudo abrir el archivo mtls conf")
  | some lines => scanLines cfg lines

/-! ## `validate_mtls_conf` -/

/-- What the settings are before the file is read. -/
def MtlsConfig.unset : MtlsConfig where
  listener := none
  tlsVersion := none
  certs := ⟨⟨""⟩, ⟨""⟩, ⟨""⟩⟩
  requireCertificate := false
  useIdentityAsUsername := false
  allowAnonymous := true
  connectionMessages := false

def validateMtlsConf (fs : FileSystem) (lines : Lines) : Except ErrorType MtlsConfig := do
  let cfg ← scanMtlsConfig lines .unset
  if cfg.listener.isNone then
    throw (.mtlsConfig "Error: listener no definido")
  if cfg.tlsVersion ≠ some "tlsv1.2" then
    throw (.mtlsConfig "Error: versión TLS inválida")
  validateCertificateSet fs cfg.certs
  if !(cfg.requireCertificate && cfg.useIdentityAsUsername && !cfg.allowAnonymous &&
      cfg.connectionMessages) then
    throw (.mtlsConfig "Error: flags de seguridad mTLS inválidos")
  return cfg

/-! ## What a file says -/

/-- The directives of the lines that can be read. -/
def directives (lines : List (Option String)) : List Directive :=
  lines.reduceOption.filterMap directive

/-- The words given to a key, in the order of the file. -/
def given (key : String) (ds : List Directive) : List String :=
  ds.filterMap (fun d => if d.1 = key then d.2 else none)

/-- What the last line of a key says. -/
def lastOf (key : String) (ds : List Directive) : Option (Option String) :=
  (ds.filter (fun d => d.1 = key)).getLast?.map Prod.snd

/-- The flags that must be set. -/
inductive Flag where
  | requireCertificate
  | useIdentityAsUsername
  | allowAnonymous
  | connectionMessages
  deriving Repr, DecidableEq

namespace Flag

def key : Flag → String
  | requireCertificate => "require_certificate"
  | useIdentityAsUsername => "use_identity_as_username"
  | allowAnonymous => "allow_anonymous"
  | connectionMessages => "connection_messages"

def required : Flag → String
  | allowAnonymous => "false"
  | _ => "true"

/-- The line that sets the flag right. -/
def line (f : Flag) : Directive := (f.key, some f.required)

def met (f : Flag) (ds : List Directive) : Bool := ds.any (fun d => d == f.line)

end Flag

/-- The settings that a file leaves: the last word given to a key, and the
flags that some line sets right. -/
def MtlsConfig.read (ds : List Directive) : MtlsConfig where
  listener := (given "listener" ds).getLast?.bind parseU16
  tlsVersion := (given "tls_version" ds).getLast?
  certs :=
    ⟨⟨(given "cafile" ds).getLast?.getD ""⟩, ⟨(given "certfile" ds).getLast?.getD ""⟩,
      ⟨(given "keyfile" ds).getLast?.getD ""⟩⟩
  requireCertificate := Flag.requireCertificate.met ds
  useIdentityAsUsername := Flag.useIdentityAsUsername.met ds
  allowAnonymous := !Flag.allowAnonymous.met ds
  connectionMessages := Flag.connectionMessages.met ds

section Lines

variable (ds : List Directive) (d : Directive)

theorem given_snoc (key : String) :
    given key (ds ++ [d]) = given key ds ++ (if d.1 = key then d.2.toList else []) := by
  unfold given
  rw [List.filterMap_append]
  congr 1
  by_cases h : d.1 = key
  · cases hd : d.2 <;> simp [h, hd]
  · simp [h]

theorem met_snoc (f : Flag) : f.met (ds ++ [d]) = (f.met ds || d == f.line) := by
  simp [Flag.met]

theorem met_iff (f : Flag) : f.met ds = true ↔ f.line ∈ ds := by
  simp [Flag.met]

/-- A line without a word gives nothing, and no line gives to another key. -/
theorem given_snoc_other {key : String} (h : ∀ p, d = (key, some p) → False) :
    given key (ds ++ [d]) = given key ds := by
  obtain ⟨key', value⟩ := d
  rw [given_snoc]
  by_cases hk : key' = key
  · cases value with
    | none => simp
    | some p => exact (h p (by rw [hk])).elim
  · simp [hk]

theorem met_snoc_other {f : Flag} (h : d ≠ f.line) : f.met (ds ++ [d]) = f.met ds := by
  rw [met_snoc, beq_eq_false_iff_ne.mpr h, Bool.or_false]

/-- One line more. -/
theorem read_snoc : MtlsConfig.read (ds ++ [d]) = (MtlsConfig.read ds).set d := by
  unfold MtlsConfig.set
  split
  case h_10 hlistener hversion hca hcert hkey hrequire huse hallow hmessages =>
    simp only [MtlsConfig.read, given_snoc_other ds d hlistener, given_snoc_other ds d hversion,
      given_snoc_other ds d hca, given_snoc_other ds d hcert, given_snoc_other ds d hkey,
      met_snoc_other ds d (f := .requireCertificate) hrequire,
      met_snoc_other ds d (f := .useIdentityAsUsername) huse,
      met_snoc_other ds d (f := .allowAnonymous) hallow,
      met_snoc_other ds d (f := .connectionMessages) hmessages]
  all_goals
    simp [MtlsConfig.read, given_snoc, met_snoc, Flag.line, Flag.key, Flag.required]

end Lines

theorem foldl_set (ds : List Directive) :
    ds.foldl MtlsConfig.set .unset = MtlsConfig.read ds := by
  induction ds using List.reverseRecOn with
  | nil => rfl
  | append_singleton ds d ih => rw [List.foldl_append, ih, read_snoc]; rfl

/-! ## What is accepted -/

theorem scanLines_eq_ok {lines : List (Option String)} {cfg cfg' : MtlsConfig} :
    scanLines cfg lines = .ok cfg' ↔
      none ∉ lines ∧ (directives lines).foldl MtlsConfig.set cfg = cfg' := by
  induction lines generalizing cfg with
  | nil => simp [scanLines, directives]
  | cons line rest ih =>
    cases line with
    | none => simp [scanLines]
    | some line =>
      rw [scanLines]
      have hrest : directives (some line :: rest) = (directive line).toList ++ directives rest := by
        simp only [directives, List.reduceOption_cons_of_some, List.filterMap_cons]
        cases directive line <;> rfl
      cases hd : directive line with
      | none => simp [ih, hrest, hd]
      | some d => simp [ih, hrest, hd]

/-- All that the check asks for is somewhere in the file. -/
structure Complete (fs : FileSystem) (lines : List (Option String)) : Prop where
  readable : none ∉ lines
  listener : ((given "listener" (directives lines)).getLast?.bind parseU16).isSome
  tlsVersion : (given "tls_version" (directives lines)).getLast? = some "tlsv1.2"
  certs : validateCertificateSet fs (MtlsConfig.read (directives lines)).certs = .ok ()
  flags : ∀ f : Flag, f.line ∈ directives lines

/-- The four flags together. -/
def MtlsConfig.secured (cfg : MtlsConfig) : Bool :=
  cfg.requireCertificate && cfg.useIdentityAsUsername && !cfg.allowAnonymous &&
    cfg.connectionMessages

theorem secured_read (ds : List Directive) :
    (MtlsConfig.read ds).secured = true ↔ ∀ f : Flag, f.line ∈ ds := by
  simp only [MtlsConfig.secured, MtlsConfig.read, Bool.not_not, Bool.and_eq_true, met_iff]
  constructor
  · rintro ⟨⟨⟨hrequire, huse⟩, hallow⟩, hmessages⟩ f
    cases f <;> assumption
  · intro h
    exact ⟨⟨⟨h _, h _⟩, h _⟩, h _⟩

theorem validateMtlsConf_of_scan {fs : FileSystem} {lines : Lines} {cfg cfg' : MtlsConfig}
    (h : scanMtlsConfig lines .unset = .ok cfg) :
    validateMtlsConf fs lines = .ok cfg' ↔
      cfg.listener.isSome = true ∧ cfg.tlsVersion = some "tlsv1.2" ∧
        validateCertificateSet fs cfg.certs = .ok () ∧ cfg.secured = true ∧ cfg = cfg' := by
  unfold validateMtlsConf MtlsConfig.secured
  rw [h]
  cases hlistener : cfg.listener with
  | none => simp [bind, Except.bind, throw, throwThe, MonadExceptOf.throw, hlistener]
  | some port =>
    by_cases hversion : cfg.tlsVersion = some "tlsv1.2"
    · cases hcerts : validateCertificateSet fs cfg.certs with
      | error e => simp [bind, Except.bind, hlistener, hversion, hcerts]
      | ok u =>
        cases hsecured : cfg.requireCertificate && cfg.useIdentityAsUsername &&
          !cfg.allowAnonymous && cfg.connectionMessages <;>
        simp [bind, Except.bind, pure, Except.pure, throw, throwThe, MonadExceptOf.throw,
          hlistener, hversion, hcerts, hsecured]
    · simp [bind, Except.bind, throw, throwThe, MonadExceptOf.throw, hlistener, hversion]

theorem validateMtlsConf_eq_ok {fs : FileSystem} {lines : List (Option String)}
    {cfg : MtlsConfig} :
    validateMtlsConf fs (some lines) = .ok cfg ↔
      Complete fs lines ∧ cfg = .read (directives lines) := by
  have hscan : ∀ cfg, scanMtlsConfig (some lines) .unset = .ok cfg ↔
      none ∉ lines ∧ .read (directives lines) = cfg := by
    intro cfg
    rw [← foldl_set]
    exact scanLines_eq_ok
  by_cases hread : none ∉ lines
  · rw [validateMtlsConf_of_scan ((hscan _).mpr ⟨hread, rfl⟩), secured_read]
    constructor
    · rintro ⟨hlistener, hversion, hcerts, hflags, rfl⟩
      exact ⟨⟨hread, hlistener, hversion, hcerts, hflags⟩, rfl⟩
    · rintro ⟨h, rfl⟩
      exact ⟨h.listener, h.tlsVersion, h.certs, h.flags, rfl⟩
  · refine iff_of_false (fun h => ?_) (fun h => hread h.1.readable)
    cases hs : scanMtlsConfig (some lines) .unset with
    | error e =>
      rw [validateMtlsConf, hs] at h
      cases h
    | ok cfg' => exact hread ((hscan cfg').mp hs).1

/-! ## The last line of a key -/

section Last

variable {key : String} {ds : List Directive} {value : Option String}

theorem lastOf_split {before after : List Directive} (h : ∀ d ∈ after, d.1 ≠ key) :
    lastOf key (before ++ (key, value) :: after) = some value := by
  have hnone : after.filter (fun d => d.1 = key) = [] := by
    rw [List.filter_eq_nil_iff]
    intro d hd
    simpa using h d hd
  simp [lastOf, List.filter_append, hnone]

theorem lastOf_eq_some :
    lastOf key ds = some value ↔
      ∃ before after, ds = before ++ (key, value) :: after ∧ ∀ d ∈ after, d.1 ≠ key := by
  constructor
  · intro h
    obtain ⟨d, hlast, rfl⟩ := Option.map_eq_some_iff.mp h
    obtain ⟨older, hfilter⟩ := List.getLast?_eq_some_iff.mp hlast
    obtain ⟨l, l', rfl, -, hfilter⟩ := List.filter_eq_append_iff.mp hfilter
    obtain ⟨between, after, rfl, -, hkey, hnone⟩ := List.filter_eq_cons_iff.mp hfilter
    refine ⟨l ++ between, after, ?_, fun d hd => ?_⟩
    · rw [List.append_assoc, ← of_decide_eq_true hkey]
    · simpa using List.filter_eq_nil_iff.mp hnone d hd
  · rintro ⟨before, after, rfl, hafter⟩
    exact lastOf_split hafter

/-- The last word given to a key, when the lines after it give it none. -/
theorem getLast?_given {before after : List Directive} {p : String}
    (h : ∀ d ∈ after, d.1 = key → d.2 = none) :
    (given key (before ++ (key, some p) :: after)).getLast? = some p := by
  have hnone : given key after = [] := by
    unfold given
    rw [List.filterMap_eq_nil_iff]
    intro d hd
    by_cases hk : d.1 = key
    · rw [if_pos hk, h d hd hk]
    · rw [if_neg hk]
  have hsplit : given key (before ++ (key, some p) :: after) = given key before ++ [p] := by
    rw [given, List.filterMap_append, List.filterMap_cons]
    simp only [if_true]
    rw [← given, ← given, hnone]
  rw [hsplit, List.getLast?_concat]

/-- Behind a last line with a word stands no line of its key without one. -/
theorem eq_of_lastOf {before after : List Directive} {required : String}
    (hlast : lastOf key (before ++ (key, value) :: after) = some (some required))
    (h : ∀ d ∈ after, d.1 = key → d.2 = none) : value = some required := by
  cases hafter : lastOf key after with
  | none =>
    have hother : ∀ d ∈ after, d.1 ≠ key := by
      simpa [lastOf, List.filter_eq_nil_iff] using hafter
    rw [lastOf_split hother] at hlast
    exact Option.some.inj hlast
  | some later =>
    obtain ⟨between, rest, rfl, hrest⟩ := lastOf_eq_some.mp hafter
    have hnone : later = none := h (key, later) (by simp) rfl
    have hsplit : before ++ (key, value) :: (between ++ (key, later) :: rest) =
        (before ++ (key, value) :: between) ++ (key, later) :: rest := by simp
    rw [hsplit, lastOf_split hrest, hnone] at hlast
    cases hlast

end Last

/-! ## The law -/

/-- The line says something else than the settings. -/
def MtlsConfig.Contradicts (cfg : MtlsConfig) : Directive → Prop
  | ("listener", some p) => parseU16 p ≠ cfg.listener
  | ("tls_version", some p) => some p ≠ cfg.tlsVersion
  | ("cafile", some p) => ⟨p⟩ ≠ cfg.certs.cafile
  | ("certfile", some p) => ⟨p⟩ ≠ cfg.certs.certfile
  | ("keyfile", some p) => ⟨p⟩ ≠ cfg.certs.keyfile
  | ("require_certificate", value) => (value == some "true") ≠ cfg.requireCertificate
  | ("use_identity_as_username", value) => (value == some "true") ≠ cfg.useIdentityAsUsername
  | ("allow_anonymous", value) => (value != some "false") ≠ cfg.allowAnonymous
  | ("connection_messages", value) => (value == some "true") ≠ cfg.connectionMessages
  | _ => False

/-- What is accepted holds to the last line: the last line of each flag sets it
right, and a line agrees with the settings where no later line gives its key
another word. -/
def Secure (fs : FileSystem) (lines : List (Option String)) : Prop :=
  ∀ cfg, validateMtlsConf fs (some lines) = .ok cfg →
    (∀ f : Flag, lastOf f.key (directives lines) = some (some f.required)) ∧
    ∀ before d after, directives lines = before ++ d :: after →
      (∀ d' ∈ after, d'.1 = d.1 → d'.2 = none) → ¬ cfg.Contradicts d

/-- A flag that one line sets right and a later one, the last of the flag, does not. -/
def Undone (f : Flag) (ds : List Directive) : Prop :=
  ∃ before value after, ds = before ++ (f.key, value) :: after ∧ f.line ∈ before ∧
    value ≠ some f.required ∧ ∀ d ∈ after, d.1 ≠ f.key

theorem lastOf_iff_not_undone {f : Flag} {ds : List Directive} (h : f.line ∈ ds) :
    lastOf f.key ds = some (some f.required) ↔ ¬ Undone f ds := by
  constructor
  · rintro hlast ⟨before, value, after, rfl, -, hne, hafter⟩
    rw [lastOf_split hafter] at hlast
    exact hne (Option.some.inj hlast)
  · intro hkept
    obtain ⟨value, hlast⟩ : ∃ value, lastOf f.key ds = some value := by
      have hne : ds.filter (fun d => d.1 = f.key) ≠ [] :=
        List.ne_nil_of_mem (List.mem_filter.mpr ⟨h, decide_eq_true rfl⟩)
      exact ⟨_, congrArg (Option.map Prod.snd) (List.getLast?_eq_some_getLast hne)⟩
    obtain ⟨before, after, rfl, hafter⟩ := lastOf_eq_some.mp hlast
    by_contra hne
    have hvalue : value ≠ some f.required := fun heq => hne (by rw [hlast, heq])
    refine hkept ⟨before, value, after, rfl, ?_, hvalue, hafter⟩
    rcases List.mem_append.mp h with hbefore | hrest
    · exact hbefore
    · rcases List.mem_cons.mp hrest with heq | hrest
      · exact absurd (Prod.mk.inj heq).2.symm hvalue
      · exact absurd rfl (hafter _ hrest)

theorem met_of_lastOf {f : Flag} {ds : List Directive}
    (h : lastOf f.key ds = some (some f.required)) : f.met ds = true := by
  obtain ⟨before, after, rfl, -⟩ := lastOf_eq_some.mp h
  rw [met_iff]
  simp [Flag.line]

theorem not_contradicts_read {before after : List Directive} {d : Directive}
    (hflags : ∀ f : Flag,
      lastOf f.key (before ++ d :: after) = some (some f.required))
    (h : ∀ d' ∈ after, d'.1 = d.1 → d'.2 = none) :
    ¬ (MtlsConfig.read (before ++ d :: after)).Contradicts d := by
  have hmet := fun f => met_of_lastOf (hflags f)
  unfold MtlsConfig.Contradicts
  split
  case h_6 value =>
    obtain rfl : value = some "true" := eq_of_lastOf (hflags .requireCertificate) h
    exact fun hne => hne (hmet .requireCertificate).symm
  case h_7 value =>
    obtain rfl : value = some "true" := eq_of_lastOf (hflags .useIdentityAsUsername) h
    exact fun hne => hne (hmet .useIdentityAsUsername).symm
  case h_8 value =>
    obtain rfl : value = some "false" := eq_of_lastOf (hflags .allowAnonymous) h
    exact fun hne => hne (congrArg Bool.not (hmet .allowAnonymous)).symm
  case h_9 value =>
    obtain rfl : value = some "true" := eq_of_lastOf (hflags .connectionMessages) h
    exact fun hne => hne (hmet .connectionMessages).symm
  case h_10 => exact not_false
  all_goals simp [MtlsConfig.read, getLast?_given h]

/-- The check accepts secure files only, but for those that set all flags right and then undo
one. -/
theorem accepted_files_are_secure (fs : FileSystem) (lines : List (Option String)) :
    Secure fs lines ↔ ¬ (Complete fs lines ∧ ∃ f, Undone f (directives lines)) := by
  constructor
  · rintro hsecure ⟨hcomplete, f, hundone⟩
    have hlast := (hsecure _ (validateMtlsConf_eq_ok.mpr ⟨hcomplete, rfl⟩)).1 f
    exact (lastOf_iff_not_undone (hcomplete.flags f)).mp hlast hundone
  · intro h cfg hcfg
    obtain ⟨hcomplete, rfl⟩ := validateMtlsConf_eq_ok.mp hcfg
    have hflags : ∀ f : Flag, lastOf f.key (directives lines) = some (some f.required) := by
      intro f
      rw [lastOf_iff_not_undone (hcomplete.flags f)]
      exact fun hundone => h ⟨hcomplete, f, hundone⟩
    refine ⟨hflags, fun before d after hsplit hafter => ?_⟩
    rw [hsplit] at hflags ⊢
    exact not_contradicts_read hflags hafter

/-- Every path is a regular file that only its owner can read. -/
def ownFiles : FileSystem := fun _ => some { isFile := true, len := 1, mode := 0o600 }

/-- A complete file that undoes a flag with its last line. -/
def undoneFile : List (Option String) :=
  [some "# mTLS", some "listener 8883", some "tls_version tlsv1.2", some "cafile /root.crt",
    some "certfile /edge.crt", some "keyfile /edge.key", some "require_certificate true",
    some "use_identity_as_username true", some "allow_anonymous false",
    some "connection_messages true", some "require_certificate false"]

theorem directives_undoneFile : directives undoneFile =
    [("listener", some "8883"), ("tls_version", some "tlsv1.2"), ("cafile", some "/root.crt"),
      ("certfile", some "/edge.crt"), ("keyfile", some "/edge.key"),
      ("require_certificate", some "true"), ("use_identity_as_username", some "true"),
      ("allow_anonymous", some "false"), ("connection_messages", some "true"),
      ("require_certificate", some "false")] := by decide +kernel

theorem complete_undoneFile : Complete ownFiles undoneFile where
  readable := by decide
  listener := by rw [directives_undoneFile]; decide +kernel
  tlsVersion := by rw [directives_undoneFile]; decide
  certs := by rw [directives_undoneFile]; decide +kernel
  flags := by
    intro f
    rw [directives_undoneFile]
    cases f <;> decide

theorem an_undone_flag_is_accepted :
    ¬ ∀ (fs : FileSystem) (lines : List (Option String)), Secure fs lines := by
  intro h
  have haccepted := validateMtlsConf_eq_ok.mpr ⟨complete_undoneFile, rfl⟩
  have hlast := (h ownFiles undoneFile _ haccepted).1 .requireCertificate
  rw [directives_undoneFile] at hlast
  revert hlast
  decide

end EdgeGateway.SystemCheck
