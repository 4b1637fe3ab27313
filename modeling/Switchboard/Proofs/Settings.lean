import Switchboard.Proofs.Except
import Switchboard.Proofs.Text.Decimal
import Switchboard.Settings.Load

/-!
# What the environment changes

A setting has a place, which is its section and its name there, and the place gives the name of its
variable.  In the settings in force a setting has the value that its own variable says; where the variable
is unset, or says nothing that the setting can hold, it keeps the value of the file or the default.  One
setting is not overridden at all: the outbound window.

Main results:

* `Setting.Kind.read?_eq_some_iff`: what a text says about a setting of some kind.
* `Settings.value_override`: one setting after the variables.
* `Settings.says_own_variable`: all settings, and where they come from.
* `Settings.outboundWindow_stays`: a variable that is set and passed over.
-/

namespace Switchboard

-- ---------------------------------------------------------------------------
-- Lists with commas
-- ---------------------------------------------------------------------------

theorem commaParts_eq (current cs : List Char) :
    commaParts current cs = cs.splitOnPPrepend (· == ',') current := by
  induction cs generalizing current with
  | nil => rw [commaParts, List.splitOnPPrepend_nil]
  | cons c rest ih =>
    rw [commaParts, List.splitOnPPrepend_cons_eq_if, ih, ih]
    simp only [beq_iff_eq, List.splitOnP_eq_splitOnPPrepend]

theorem not_mem_of_mem_splitOn {sep : Char} {cs part : List Char} (h : part ∈ cs.splitOn sep) :
    sep ∉ part := by
  induction cs generalizing part with
  | nil =>
    rw [List.splitOn_nil, List.mem_singleton] at h
    rw [h]
    exact List.not_mem_nil
  | cons c rest ih =>
    rw [List.splitOn_cons_eq_if_modifyHead] at h
    split at h
    · rcases List.mem_cons.mp h with rfl | h
      · exact List.not_mem_nil
      · exact ih h
    · next hsep =>
      obtain ⟨first, others, hparts⟩ := List.exists_cons_of_ne_nil (List.splitOn_ne_nil sep rest)
      rw [hparts] at h ih
      rcases List.mem_cons.mp h with rfl | h
      · intro hmem
        rcases List.mem_cons.mp hmem with rfl | hmem
        · exact hsep (beq_self_eq_true _)
        · exact ih List.mem_cons_self hmem
      · exact ih (List.mem_cons_of_mem _ h)

/-- The parts between commas have no commas, and make the text if they are put together with commas; there
is only one such way to cut the text. -/
theorem commaParts_eq_iff {cs : List Char} {parts : List (List Char)} :
    commaParts [] cs = parts ↔
      parts ≠ [] ∧ (∀ part ∈ parts, ',' ∉ part) ∧ cs = List.intercalate [','] parts := by
  have hsplit : commaParts [] cs = cs.splitOn ',' := by
    rw [commaParts_eq, ← List.splitOnP_eq_splitOnPPrepend, List.splitOn_eq_splitOnP]
  rw [hsplit]
  constructor
  · rintro rfl
    exact ⟨List.splitOn_ne_nil _ _, fun _ => not_mem_of_mem_splitOn, (List.intercalate_splitOn ',').symm⟩
  · rintro ⟨hne, hcomma, rfl⟩
    exact List.splitOn_intercalate ',' hcomma hne

-- ---------------------------------------------------------------------------
-- Settings and their variables
-- ---------------------------------------------------------------------------

/-- One of the settings. -/
inductive Setting where
  | listenAddress
  | apiPort
  | maxBurst
  | maxFramePayload
  | outboundWindow
  | maxFileSize
  | inactivityTimeout
  | storagePath
  | screenNames
  deriving Repr, DecidableEq

namespace Setting

/-- The section of a setting, and its name there. -/
def place : Setting → String × String
  | listenAddress => ("network", "listen_addr")
  | apiPort => ("network", "api_port")
  | maxBurst => ("transport", "max_burst")
  | maxFramePayload => ("transport", "max_frame_payload")
  | outboundWindow => ("transport", "outbound_window")
  | maxFileSize => ("transfer", "max_file_size")
  | inactivityTimeout => ("transfer", "inactivity_timeout_secs")
  | storagePath => ("transfer", "storage_path")
  | screenNames => ("directory", "screen_names")

/-- A text in capitals. -/
def capitals (s : String) : String :=
  String.ofList (s.toList.map Char.toUpper)

/-- The variable for a setting. -/
def envName (setting : Setting) : String :=
  "DIALTONE_" ++ capitals setting.place.1 ++ "__" ++ capitals setting.place.2

/-- Every setting has a variable of its own. -/
theorem eq_of_envName_eq {a b : Setting} (h : a.envName = b.envName) : a = b := by
  cases a <;> cases b <;> first | rfl | exact absurd h (by decide)

/-- What a setting is set to. -/
inductive Value where
  | text (s : String)
  | number (n : Nat)
  | names (all : List String)
  deriving Repr, DecidableEq

/-- What kind of values a setting has. -/
inductive Kind where
  | text
  /-- Numbers of so many bits. -/
  | number (bits : Nat)
  | names
  deriving Repr, DecidableEq

def kind : Setting → Kind
  | listenAddress | storagePath => .text
  | apiPort => .number 16
  | maxBurst | maxFramePayload | outboundWindow | maxFileSize | inactivityTimeout =>
    .number 64
  | screenNames => .names

namespace Kind

/-- What a text says about a setting. -/
inductive Denotes : Kind → String → Value → Prop where
  | text (s : String) : Denotes .text s (.text s)
  /-- A number in decimal, perhaps after a plus sign. -/
  | number {bits n : Nat} {s : String} (digits : List Char) :
      (s.toList = digits ∨ s.toList = '+' :: digits) → Text.IsNumeral digits n → n < Nat.pow 2 bits →
      Denotes (.number bits) s (.number n)
  /-- The parts between commas, in order, without white space around them; empty ones do not count. -/
  | names {s : String} (parts : List (List Char)) :
      parts ≠ [] → (∀ part ∈ parts, ',' ∉ part) → s.toList = List.intercalate [','] parts →
      Denotes .names s
        (.names ((parts.map fun part => String.ofList (Text.trim part)).filter (· ≠ "")))

/-- Reads a value from a text. -/
def read? : Kind → String → Option Value
  | text, s => some (.text s)
  | number bits, s => (Text.unsignedBelow? (Nat.pow 2 bits) s.toList).map .number
  | names, s => some (.names (commaNames s))

theorem read?_eq_some_iff {kind : Kind} {s : String} {value : Value} :
    kind.read? s = some value ↔ kind.Denotes s value := by
  constructor
  · intro h
    cases kind with
    | text =>
      cases h
      exact .text s
    | number bits =>
      obtain ⟨n, hn, rfl⟩ := Option.map_eq_some_iff.mp h
      obtain ⟨⟨digits, hs, hdigits⟩, hlt⟩ :=
        (Text.unsignedBelow?_eq_some_iff (Nat.two_pow_pos bits)).mp hn
      exact .number digits hs hdigits hlt
    | names =>
      cases h
      obtain ⟨hne, hcomma, hparts⟩ := commaParts_eq_iff.mp (rfl : commaParts [] s.toList = _)
      exact .names _ hne hcomma hparts
  · rintro (s | ⟨digits, hs, hdigits, hlt⟩ | ⟨parts, hne, hcomma, hparts⟩)
    · rfl
    · rw [read?, (Text.unsignedBelow?_eq_some_iff (Nat.zero_lt_of_lt hlt)).mpr
        ⟨⟨digits, hs, hdigits⟩, hlt⟩]
      rfl
    · rw [read?, commaNames, commaParts_eq_iff.mpr ⟨hne, hcomma, hparts⟩]

end Kind

end Setting

open Setting (Value)

/-- The value of one setting. -/
def Settings.value (settings : Settings) : Setting → Value
  | .listenAddress => .text settings.network.listenAddress
  | .apiPort => .number settings.network.apiPort.toNat
  | .maxBurst => .number settings.transport.maxBurst.toNat
  | .maxFramePayload => .number settings.transport.maxFramePayload.toNat
  | .outboundWindow => .number settings.transport.outboundWindow.toNat
  | .maxFileSize => .number settings.transfer.maxFileSize.toNat
  | .inactivityTimeout => .number settings.transfer.inactivityTimeout.toNat
  | .storagePath => .text settings.transfer.storagePath
  | .screenNames => .names settings.directory.screenNames

-- ---------------------------------------------------------------------------
-- Settings after the variables
-- ---------------------------------------------------------------------------

namespace Environment

variable {env : Environment} {setting : Setting} {name : String}

/-- The environment with the given variables, and no others. -/
def ofList (entries : List (String × String)) : Environment :=
  fun name => entries.lookup name

/-- The variable of a setting is set, to a text that says a value for it. -/
def Says (env : Environment) (setting : Setting) (value : Value) : Prop :=
  ∃ s, env setting.envName = some s ∧ setting.kind.Denotes s value

/-- What the variable of a setting says, if it says anything. -/
def said? (env : Environment) (setting : Setting) : Option Value :=
  (env setting.envName).bind setting.kind.read?

theorem said?_eq_some_iff {value : Value} : env.said? setting = some value ↔ env.Says setting value := by
  simp only [said?, Option.bind_eq_some_iff, Setting.Kind.read?_eq_some_iff, Says]

theorem said?_eq_none_iff : env.said? setting = none ↔ ∀ value, ¬env.Says setting value := by
  simp only [Option.eq_none_iff_forall_ne_some, ne_eq, said?_eq_some_iff]

/-! How a setting of each kind is overridden by the variable of that name. -/

theorem text_getD (hname : setting.envName = name) (hkind : setting.kind = .text) (old : String) :
    Value.text ((env name).getD old) = (env.said? setting).getD (.text old) := by
  rw [said?, hname, hkind]
  cases env name <;> rfl

theorem number_getD {α : Type} {bits : Nat} {make : Nat → α} {toNat : α → Nat}
    (hmake : ∀ n < Nat.pow 2 bits, toNat (make n) = n) (hname : setting.envName = name)
    (hkind : setting.kind = .number bits) (old : α) :
    Value.number (toNat (((env.number? name (Nat.pow 2 bits)).map make).getD old)) =
      (env.said? setting).getD (.number (toNat old)) := by
  rw [said?, hname, hkind, number?]
  cases env name with
  | none => rfl
  | some s =>
    simp only [Option.bind_some, Setting.Kind.read?]
    cases hread : Text.unsignedBelow? (Nat.pow 2 bits) s.toList with
    | none => rfl
    | some n =>
      have hlt := ((Text.unsignedBelow?_eq_some_iff (Nat.two_pow_pos bits)).mp hread).2
      exact congrArg Value.number (hmake n hlt)

theorem port_getD (hname : setting.envName = name) (hkind : setting.kind = .number 16) (old : UInt16) :
    Value.number (((env.number? name UInt16.size).map UInt16.ofNat).getD old).toNat =
      (env.said? setting).getD (.number old.toNat) :=
  number_getD (fun _ => UInt16.toNat_ofNat_of_lt') hname hkind old

theorem word_getD (hname : setting.envName = name) (hkind : setting.kind = .number 64) (old : UInt64) :
    Value.number ((env.word? name).getD old).toNat = (env.said? setting).getD (.number old.toNat) :=
  number_getD (fun _ => UInt64.toNat_ofNat_of_lt') hname hkind old

theorem names_getD (hname : setting.envName = name) (hkind : setting.kind = .names)
    (old : List String) :
    Value.names (((env name).map commaNames).getD old) = (env.said? setting).getD (.names old) := by
  rw [said?, hname, hkind]
  cases env name <;> rfl

end Environment

namespace Settings

/-- After the variables a setting is what its own variable says, or what it was. -/
theorem value_override (settings : Settings) (env : Environment) {setting : Setting}
    (h : setting ≠ .outboundWindow) :
    (settings.override env).value setting = (env.said? setting).getD (settings.value setting) := by
  cases setting with
  | listenAddress => exact Environment.text_getD (by decide) rfl _
  | apiPort => exact Environment.port_getD (by decide) rfl _
  | maxBurst => exact Environment.word_getD (by decide) rfl _
  | maxFramePayload => exact Environment.word_getD (by decide) rfl _
  | outboundWindow => exact absurd rfl h
  | maxFileSize => exact Environment.word_getD (by decide) rfl _
  | inactivityTimeout => exact Environment.word_getD (by decide) rfl _
  | storagePath => exact Environment.text_getD (by decide) rfl _
  | screenNames => exact Environment.names_getD (by decide) rfl _

/-- No variable changes the outbound window. -/
theorem value_override_outboundWindow (settings : Settings) (env : Environment) :
    (settings.override env).value .outboundWindow = settings.value .outboundWindow := rfl

theorem value_override_of_silent (settings : Settings) {env : Environment} {setting : Setting}
    (h : ∀ value, ¬env.Says setting value) :
    (settings.override env).value setting = settings.value setting := by
  by_cases hwindow : setting = .outboundWindow
  · rw [hwindow, value_override_outboundWindow]
  · rw [value_override settings env hwindow, Environment.said?_eq_none_iff.mpr h]
    rfl

/-- What a setting is set to depends on its own variable alone. -/
theorem value_override_congr (settings : Settings) {env env' : Environment} {setting : Setting}
    (h : env' setting.envName = env setting.envName) :
    (settings.override env').value setting = (settings.override env).value setting := by
  by_cases hwindow : setting = .outboundWindow
  · rw [hwindow, value_override_outboundWindow, value_override_outboundWindow]
  · rw [value_override settings env hwindow, value_override settings env' hwindow,
      Environment.said?, Environment.said?, h]

/-- The settings that the variables override: those of the file, or the defaults if there is none. -/
def IsBase (env : Environment) (file : Option Bytes) (base : Settings) : Prop :=
  (file = none ∧ base = defaultIn env) ∨ (file ≠ none ∧ ofFile env file = .ok base)

theorem load_eq_ok_iff {env : Environment} {file : Option Bytes} {settings : Settings} :
    load env file = .ok settings ↔ ∃ base, IsBase env file base ∧ settings = base.override env := by
  cases file with
  | none =>
    constructor
    · intro h
      cases h
      exact ⟨_, .inl ⟨rfl, rfl⟩, rfl⟩
    · rintro ⟨base, ⟨-, rfl⟩ | ⟨hfile, -⟩, rfl⟩
      · rfl
      · exact absurd rfl hfile
  | some bytes =>
    rw [load]
    dsimp only
    rw [bind_eq_ok_iff]
    constructor
    · rintro ⟨base, hbase, h⟩
      cases h
      exact ⟨base, .inr ⟨nofun, hbase⟩, rfl⟩
    · rintro ⟨base, ⟨hfile, -⟩ | ⟨-, hbase⟩, rfl⟩
      · cases hfile
      · exact ⟨base, hbase, rfl⟩

/-- In the settings in force, every setting but the outbound window is what its own variable says if that
says something, and otherwise what it was in the file or by default; the outbound window always is. No
other variable counts, and no two settings share one. -/
theorem says_own_variable (env : Environment) :
    (∀ (settings : Settings) setting value, setting ≠ .outboundWindow → env.Says setting value →
      (settings.override env).value setting = value) ∧
    (∀ (settings : Settings) setting,
      (setting = .outboundWindow ∨ ∀ value, ¬env.Says setting value) →
        (settings.override env).value setting = settings.value setting) ∧
    (∀ (settings : Settings) (setting : Setting) (env' : Environment),
      env' setting.envName = env setting.envName →
        (settings.override env').value setting = (settings.override env).value setting) ∧
    (∀ a b : Setting, a.envName = b.envName → a = b) ∧
    (∀ file settings, load env file = .ok settings ↔
      ∃ base, IsBase env file base ∧ settings = base.override env) := by
  refine ⟨?_, ?_, ?_, fun _ _ => Setting.eq_of_envName_eq, fun _ _ => load_eq_ok_iff⟩
  · intro settings setting value hwindow hsays
    rw [value_override settings env hwindow, Environment.said?_eq_some_iff.mpr hsays]
    rfl
  · rintro settings setting (rfl | hsilent)
    · exact settings.value_override_outboundWindow env
    · exact settings.value_override_of_silent hsilent
  · intro settings setting env' hsame
    exact settings.value_override_congr hsame

/-- Of a number, a list of names and a text that is no number, the first two count. -/
theorem says_own_variable_mixed :
    let env : Environment := .ofList [("DIALTONE_TRANSPORT__MAX_BURST", "+4"),
      ("DIALTONE_DIRECTORY__SCREEN_NAMES", "Steve Case, guest ,"),
      ("DIALTONE_NETWORK__API_PORT", "not-a-port")]
    let settings := (default "/data").override env
    settings.value .maxBurst = .number 4 ∧
      settings.value .screenNames = .names ["Steve Case", "guest"] ∧
      settings.value .apiPort = .number 5191 := by
  intro env settings
  obtain ⟨hsaid, hkept, -⟩ := says_own_variable env
  refine ⟨?_, ?_, ?_⟩
  · exact hsaid _ _ _ (by decide) (Environment.said?_eq_some_iff.mp (by decide))
  · exact hsaid _ _ _ (by decide) (Environment.said?_eq_some_iff.mp (by decide))
  · exact hkept _ _ (.inr (Environment.said?_eq_none_iff.mp (by decide)))

/-- The variable of the outbound window is set to a number of the right size, and passed over. -/
theorem outboundWindow_stays :
    let env : Environment := .ofList [("DIALTONE_TRANSPORT__OUTBOUND_WINDOW", "5")]
    env.Says .outboundWindow (.number 5) ∧
      ∃ settings, load env none = .ok settings ∧ settings.value .outboundWindow = .number 32 := by
  intro env
  exact ⟨Environment.said?_eq_some_iff.mp (by decide), _, rfl, rfl⟩

end Settings

end Switchboard
