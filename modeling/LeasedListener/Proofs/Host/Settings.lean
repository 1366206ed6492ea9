import LeasedListener.Host.Settings
import LeasedListener.Proofs.Identifier.Grammar
import LeasedListener.Proofs.Text.Blank

/-!
# Settings and the configurations that they describe

Each part of a host configuration is described by one setting, and follows that
setting alone: it has the value that the setting means, and is as by default
where the setting means none.  A configuration that settings can describe is
read back from the settings in which it is written.
-/

namespace LeasedListener

namespace Settings

theorem pieces_eq_splitOn (text : List Char) : pieces text = text.splitOn ',' := by
  induction text with
  | nil => rfl
  | cons c rest ih =>
      rw [List.splitOn_cons_eq_if_modifyHead, ← ih]
      by_cases hcomma : c = ','
      · subst hcomma
        rfl
      · obtain ⟨piece, found, hpieces⟩ := List.exists_cons_of_ne_nil
          (ih ▸ List.splitOn_ne_nil ',' rest : pieces rest ≠ [])
        rw [if_neg (by simpa using hcomma)]
        simp [pieces, hpieces]

theorem comma_notMem_of_mem_splitOn {text piece : List Char} (h : piece ∈ text.splitOn ',') :
    ',' ∉ piece := by
  induction text generalizing piece with
  | nil =>
      rw [List.splitOn_nil, List.mem_singleton] at h
      simp [h]
  | cons c rest ih =>
      rw [List.splitOn_cons_eq_if_modifyHead] at h
      obtain ⟨first, others, hsplit⟩ := List.exists_cons_of_ne_nil (List.splitOn_ne_nil ',' rest)
      by_cases hcomma : c = ','
      · rw [if_pos (by simpa using hcomma)] at h
        rcases List.mem_cons.mp h with rfl | hrest
        · simp
        · exact ih hrest
      · rw [if_neg (by simpa using hcomma), hsplit, List.modifyHead_cons] at h
        rcases List.mem_cons.mp h with rfl | hothers
        · have hfirst : ',' ∉ first := ih (by simp [hsplit])
          simp [hfirst, Ne.symm hcomma]
        · exact ih (by simp [hsplit, hothers])

end Settings

/-- The parts of a host configuration that a setting describes. -/
inductive HostPart
  | holder
  | leaseName
  | queueName
  | singleton
  | poisonQueue
  | leaseDuration
  | leaseRenewal
  | visibilityTimeout
  | maxDequeueCount
  | maxPollingInterval
  | serverUrl
  | seedMessages
deriving DecidableEq

namespace HostPart

def all : List HostPart :=
  [holder, leaseName, queueName, singleton, poisonQueue, leaseDuration, leaseRenewal,
    visibilityTimeout, maxDequeueCount, maxPollingInterval, serverUrl, seedMessages]

def setting : HostPart → String
  | holder => SettingName.hostId
  | leaseName => SettingName.leaseName
  | queueName => SettingName.queueName
  | singleton => SettingName.singleton
  | poisonQueue => SettingName.poisonQueue
  | leaseDuration => SettingName.leaseDuration
  | leaseRenewal => SettingName.leaseRenewal
  | visibilityTimeout => SettingName.visibilityTimeout
  | maxDequeueCount => SettingName.maxDequeueCount
  | maxPollingInterval => SettingName.maxPollingInterval
  | serverUrl => SettingName.serverUrl
  | seedMessages => SettingName.seedMessages

def Value : HostPart → Type
  | holder => Identifier
  | leaseName | queueName => String
  | singleton | poisonQueue => Bool
  | leaseDuration | leaseRenewal | visibilityTimeout | maxPollingInterval => Duration
  | maxDequeueCount => UInt32
  | serverUrl => Option String
  | seedMessages => List String

def of : (part : HostPart) → HostConfig → part.Value
  | holder, c => c.lease.holder
  | leaseName, c => c.leaseName
  | queueName, c => c.queueName
  | singleton, c => c.singleton
  | poisonQueue, c => c.poisonQueue
  | leaseDuration, c => c.lease.leaseDuration
  | leaseRenewal, c => c.lease.renewalInterval
  | visibilityTimeout, c => c.poller.visibilityTimeout
  | maxDequeueCount, c => c.poller.maxDequeueCount
  | maxPollingInterval, c => c.poller.maxPollingInterval
  | serverUrl, c => c.serverUrl
  | seedMessages, c => c.seedMessages

/-- The default configuration with parts of its own. -/
def assemble (value : (part : HostPart) → part.Value) : HostConfig :=
  let standard := HostConfig.standard (value holder)
  { standard with
    leaseName := value leaseName
    queueName := value queueName
    singleton := value singleton
    poisonQueue := value poisonQueue
    lease :=
      { standard.lease with
        leaseDuration := value leaseDuration
        renewalInterval := value leaseRenewal }
    poller :=
      { standard.poller with
        visibilityTimeout := value visibilityTimeout
        maxDequeueCount := value maxDequeueCount
        maxPollingInterval := value maxPollingInterval }
    serverUrl := value serverUrl
    seedMessages := value seedMessages }

end HostPart

/-- The text holds white space at most. -/
def IsBlankText (text : String) : Prop := ∀ c ∈ text.toList, isBlank c = true

instance (text : String) : Decidable (IsBlankText text) :=
  decidable_of_iff (text.toList.all isBlank = true) List.all_eq_true

def flagWords : Bool → List String
  | true => ["1", "true", "yes", "on"]
  | false => ["0", "false", "no", "off"]

def flagText : Bool → String
  | true => "true"
  | false => "false"

/-- A word for a flag in any letter case. -/
def SpellsFlag (flag : Bool) (text : List Char) : Prop :=
  String.ofList (text.map Char.toLower) ∈ flagWords flag

/-- A number of seconds that fits into 64 bits. -/
def SpellsSeconds (d : Duration) (text : List Char) : Prop :=
  ∃ n < UInt64.size, SpellsUnsigned n text ∧ d.nanos = n * nanosPerSecond

/-- What is fit to be a seed message. -/
structure IsSeed (body : String) : Prop where
  nonempty : body ≠ ""
  comma : ',' ∉ body.toList
  trimmed : IsTrimmed body.toList

def AreSeeds (bodies : List String) : Prop := ∀ body ∈ bodies, IsSeed body

namespace Settings

variable {text : List Char} {raw : String}

theorem readFlag?_eq_some_iff {flag : Bool} :
    readFlag? text = some flag ↔ SpellsFlag flag text := by
  have hapart : ∀ word ∈ flagWords true, word ∉ flagWords false := by decide
  have hread : readFlag? text =
      if String.ofList (text.map Char.toLower) ∈ flagWords true then some true
      else if String.ofList (text.map Char.toLower) ∈ flagWords false then some false
      else none := rfl
  rw [hread, SpellsFlag]
  by_cases htrue : String.ofList (text.map Char.toLower) ∈ flagWords true
  · rw [if_pos htrue]
    cases flag with
    | true => exact iff_of_true rfl htrue
    | false => exact iff_of_false (by simp) (hapart _ htrue)
  · rw [if_neg htrue]
    by_cases hfalse : String.ofList (text.map Char.toLower) ∈ flagWords false
    · rw [if_pos hfalse]
      cases flag with
      | true => exact iff_of_false (by simp) htrue
      | false => exact iff_of_true rfl hfalse
    · rw [if_neg hfalse]
      cases flag with
      | true => exact iff_of_false (by simp) htrue
      | false => exact iff_of_false (by simp) hfalse

theorem readSeconds?_eq_some_iff {d : Duration} :
    readSeconds? text = some d ↔ SpellsSeconds d text := by
  rw [readSeconds?, Option.map_eq_some_iff]
  constructor
  · rintro ⟨n, hread, rfl⟩
    obtain ⟨hspells, hless⟩ := readUnsigned?_eq_some_iff.mp hread
    exact ⟨n, hless, hspells, Duration.nanos_ofSeconds hless⟩
  · rintro ⟨n, hless, hspells, hnanos⟩
    refine ⟨n, readUnsigned?_eq_some_iff.mpr ⟨hspells, hless⟩, ?_⟩
    apply Duration.ext_nanos
    rw [hnanos]
    exact Duration.nanos_ofSeconds hless

theorem readCount?_eq_some_iff {count : UInt32} :
    readCount? text = some count ↔ SpellsUnsigned count.toNat text := by
  rw [readCount?, Option.map_eq_some_iff]
  constructor
  · rintro ⟨n, hread, rfl⟩
    obtain ⟨hspells, hless⟩ := readUnsigned?_eq_some_iff.mp hread
    rw [UInt32.toNat_ofNat_of_lt' hless]
    exact hspells
  · intro hspells
    exact ⟨_, readUnsigned?_eq_some_iff.mpr ⟨hspells, count.toNat_lt⟩, UInt32.ofNat_toNat⟩

theorem toList_readSeeds (raw : String) :
    (readSeeds raw).map String.toList =
      ((raw.toList.splitOn ',').map trimBlanks).filter (· ≠ []) := by
  have hcodes : String.toList ∘ String.ofList = id := funext fun _ => String.toList_ofList
  rw [readSeeds, pieces_eq_splitOn, List.map_map, hcodes, List.map_id]
  apply List.filter_congr
  intro body _
  rw [Bool.eq_iff_iff]
  simp

theorem readSeeds_eq_iff {bodies : List String} :
    readSeeds raw = bodies ↔
      bodies.map String.toList = ((raw.toList.splitOn ',').map trimBlanks).filter (· ≠ []) := by
  rw [← toList_readSeeds]
  constructor
  · rintro rfl
    rfl
  · intro h
    exact (List.map_injective_iff.mpr (fun _ _ => String.toList_injective) h).symm

end Settings

theorem Identifier.SpellsDigit.isBlank_eq {d : Fin 16} {c : Char} (h : SpellsDigit d c) :
    isBlank c = false := by
  have hlower : ∀ d : Fin 16, isBlank (Identifier.hexChar d) = false := by decide
  have hupper : ∀ d : Fin 16, isBlank (Identifier.hexChar d).toUpper = false := by decide
  rcases h with rfl | rfl
  · exact hlower d
  · exact hupper d

theorem Identifier.spells_trimBlanks_text (id : Identifier) :
    id.Spells (trimBlanks id.text.toList) := by
  rw [trimBlanks_eq_self]
  · exact .hyphenated id.text_groups
  · intro c hmem
    rcases id.text_groups.exists_digit hmem with rfl | ⟨d, hd⟩
    · decide
    · exact hd.isBlank_eq

theorem trimBlanks_toString (n : Nat) :
    trimBlanks (toString n).toList = Nat.toDigits 10 n := by
  rw [Nat.toString_eq_repr, Nat.toList_repr]
  apply trimBlanks_eq_self
  intro c hmem
  exact isBlank_of_isDigit (isDigit_toDigits n c hmem)

theorem spellsUnsigned_toString (n : Nat) :
    SpellsUnsigned n (trimBlanks (toString n).toList) := by
  rw [trimBlanks_toString]
  exact .plain (isNumeral_toDigits n)

theorem spellsSeconds_toString {d : Duration} (h : d.subsecNanos = 0) :
    SpellsSeconds d (trimBlanks (toString d.seconds).toList) := by
  have hwhole : d.seconds * nanosPerSecond = d.nanos :=
    Nat.div_mul_cancel (Nat.dvd_of_mod_eq_zero h)
  refine ⟨d.seconds, ?_, spellsUnsigned_toString d.seconds, hwhole.symm⟩
  exact Nat.div_lt_of_lt_mul (by rw [Nat.mul_comm]; exact d.nanos_lt)

theorem spellsFlag_flagText (flag : Bool) :
    SpellsFlag flag (trimBlanks (flagText flag).toList) := by
  unfold SpellsFlag
  revert flag
  decide

/-- Bodies that are fit to be seed messages are found again between commas. -/
theorem splitOn_intercalate_seeds {bodies : List String} (h : AreSeeds bodies) :
    (((String.intercalate "," bodies).toList.splitOn ',').map trimBlanks).filter (· ≠ []) =
      bodies.map String.toList := by
  have htexts : ∀ text ∈ bodies.map String.toList,
      ',' ∉ text ∧ trimBlanks text = text ∧ text ≠ [] := by
    intro text hmem
    obtain ⟨body, hbody, rfl⟩ := List.mem_map.mp hmem
    obtain ⟨hnonempty, hcomma, htrimmed⟩ := h body hbody
    exact ⟨hcomma, htrimmed.trimBlanks_eq, by simpa using hnonempty⟩
  by_cases hnone : bodies = []
  · -- no bodies are written as one empty piece, which is left out again
    subst hnone
    decide
  · rw [String.toList_intercalate]
    change (((List.intercalate [','] (bodies.map String.toList)).splitOn ',').map _).filter _ = _
    rw [List.splitOn_intercalate _ (fun text hmem => (htexts text hmem).1) (by simpa using hnone)]
    have hkept : (bodies.map String.toList).map trimBlanks = bodies.map String.toList :=
      (List.map_congr_left fun text hmem => (htexts text hmem).2.1).trans (List.map_id _)
    rw [hkept, List.filter_eq_self]
    intro text hmem
    simpa using (htexts text hmem).2.2

namespace HostPart

/-- What the text of a setting means, where it means something. -/
def Means : (part : HostPart) → String → part.Value → Prop
  | holder, raw, id => id.Spells (trimBlanks raw.toList)
  | leaseName, raw, name | queueName, raw, name => ¬ IsBlankText raw ∧ name = raw
  | singleton, raw, flag | poisonQueue, raw, flag => SpellsFlag flag (trimBlanks raw.toList)
  | leaseDuration, raw, d | leaseRenewal, raw, d | visibilityTimeout, raw, d
  | maxPollingInterval, raw, d => SpellsSeconds d (trimBlanks raw.toList)
  | maxDequeueCount, raw, count => SpellsUnsigned count.toNat (trimBlanks raw.toList)
  | serverUrl, raw, url => ¬ IsBlankText raw ∧ url = some raw
  | seedMessages, raw, bodies =>
      bodies.map String.toList = ((raw.toList.splitOn ',').map trimBlanks).filter (· ≠ [])

/-- The text of a setting that describes a part, where it needs one. -/
def written? : (part : HostPart) → part.Value → Option String
  | holder, id => some id.text
  | leaseName, name | queueName, name => some name
  | singleton, flag | poisonQueue, flag => some (flagText flag)
  | leaseDuration, d | leaseRenewal, d | visibilityTimeout, d | maxPollingInterval, d =>
      some (toString d.seconds)
  | maxDequeueCount, count => some (toString count.toNat)
  | serverUrl, url => url
  | seedMessages, bodies => some (String.intercalate "," bodies)

/-- The values that a setting can describe. -/
def IsWritable : (part : HostPart) → part.Value → Prop
  | leaseName, name | queueName, name => ¬ IsBlankText name
  | leaseDuration, d | leaseRenewal, d | visibilityTimeout, d | maxPollingInterval, d =>
      d.subsecNanos = 0
  | serverUrl, url => ∀ text, url = some text → ¬ IsBlankText text
  | seedMessages, bodies => AreSeeds bodies
  | holder, _ | singleton, _ | poisonQueue, _ | maxDequeueCount, _ => True

/-- A text that counts unless it is blank. -/
def readText? (raw : String) : Option String :=
  if (trimBlanks raw.toList).isEmpty then none else some raw

/-- The reading of the text of a setting. -/
def read? : (part : HostPart) → String → Option part.Value
  | holder, raw => Identifier.parseChars? (trimBlanks raw.toList)
  | leaseName, raw | queueName, raw => readText? raw
  | singleton, raw | poisonQueue, raw => Settings.readFlag? (trimBlanks raw.toList)
  | leaseDuration, raw | leaseRenewal, raw | visibilityTimeout, raw | maxPollingInterval, raw =>
      Settings.readSeconds? (trimBlanks raw.toList)
  | maxDequeueCount, raw => Settings.readCount? (trimBlanks raw.toList)
  | serverUrl, raw => (readText? raw).map some
  | seedMessages, raw => some (Settings.readSeeds raw)

theorem nonBlank?_eq (settings : Settings) (name : String) :
    settings.nonBlank? name = (settings name).bind readText? := by
  rw [Settings.nonBlank?]
  cases settings name with
  | none => rfl
  | some raw =>
      rw [Option.bind_some, readText?, Option.filter_some]
      cases (trimBlanks raw.toList).isEmpty <;> rfl

/-- A part of a configuration follows its own setting. -/
theorem of_config (part : HostPart) (settings : Settings) (holder : Identifier) :
    part.of (settings.config holder) =
      ((settings part.setting).bind part.read?).getD (part.of (.standard holder)) := by
  cases part with
  | holder | singleton | poisonQueue | leaseDuration | leaseRenewal | visibilityTimeout
  | maxDequeueCount | maxPollingInterval => rfl
  | leaseName => exact congrArg (Option.getD · _) (nonBlank?_eq settings SettingName.leaseName)
  | queueName => exact congrArg (Option.getD · _) (nonBlank?_eq settings SettingName.queueName)
  | serverUrl =>
      simp only [of, Settings.config, setting, nonBlank?_eq]
      cases settings SettingName.serverUrl with
      | none => rfl
      | some raw => cases hread : readText? raw <;> simp [read?, hread] <;> rfl
  | seedMessages =>
      simp only [of, Settings.config, setting]
      cases settings SettingName.seedMessages <;> rfl

theorem readText?_eq_some_iff {raw name : String} :
    readText? raw = some name ↔ ¬ IsBlankText raw ∧ name = raw := by
  have hblank : (trimBlanks raw.toList).isEmpty = true ↔ IsBlankText raw := by
    rw [List.isEmpty_iff, trimBlanks_eq_nil_iff, IsBlankText]
  rw [readText?, ← hblank]
  by_cases hempty : (trimBlanks raw.toList).isEmpty = true
  · simp [hempty]
  · simp [hempty, eq_comm]

theorem map_readText?_eq_some_iff {raw : String} {url : Option String} :
    (readText? raw).map some = some url ↔ ¬ IsBlankText raw ∧ url = some raw := by
  rw [Option.map_eq_some_iff]
  simp only [readText?_eq_some_iff]
  constructor
  · rintro ⟨_, ⟨hplain, rfl⟩, rfl⟩
    exact ⟨hplain, rfl⟩
  · rintro ⟨hplain, rfl⟩
    exact ⟨raw, ⟨hplain, rfl⟩, rfl⟩

theorem read?_eq_some_iff (part : HostPart) {raw : String} {value : part.Value} :
    part.read? raw = some value ↔ part.Means raw value := by
  cases part with
  | holder => exact ⟨Identifier.spells_of_parseChars?, Identifier.Spells.parseChars?⟩
  | singleton | poisonQueue => exact Settings.readFlag?_eq_some_iff
  | leaseDuration | leaseRenewal | visibilityTimeout | maxPollingInterval =>
      exact Settings.readSeconds?_eq_some_iff
  | maxDequeueCount => exact Settings.readCount?_eq_some_iff
  | leaseName | queueName => exact readText?_eq_some_iff
  | serverUrl => exact map_readText?_eq_some_iff
  | seedMessages => exact Option.some_inj.trans Settings.readSeeds_eq_iff

section

variable {raw : String}

theorem means_written (part : HostPart) {value : part.Value} (h : part.IsWritable value)
    (hwritten : part.written? value = some raw) : part.Means raw value := by
  cases part with
  | holder =>
      cases hwritten
      exact value.spells_trimBlanks_text
  | leaseName | queueName =>
      cases hwritten
      exact ⟨h, rfl⟩
  | singleton | poisonQueue =>
      cases hwritten
      exact spellsFlag_flagText value
  | leaseDuration | leaseRenewal | visibilityTimeout | maxPollingInterval =>
      cases hwritten
      exact spellsSeconds_toString h
  | maxDequeueCount =>
      cases hwritten
      exact spellsUnsigned_toString value.toNat
  | serverUrl => exact ⟨h raw hwritten, hwritten⟩
  | seedMessages =>
      cases hwritten
      exact (splitOn_intercalate_seeds h).symm

/-- Only what is as by default goes without a setting. -/
theorem eq_standard_of_written?_eq_none (part : HostPart) {value : part.Value}
    (h : part.written? value = none) (holder : Identifier) :
    value = part.of (.standard holder) := by
  cases part with
  | serverUrl => exact h
  | holder | leaseName | queueName | singleton | poisonQueue | leaseDuration | leaseRenewal
  | visibilityTimeout | maxDequeueCount | maxPollingInterval | seedMessages => cases h

theorem find?_setting (part : HostPart) :
    all.find? (fun other => other.setting = part.setting) = some part := by
  cases part <;> decide

variable {settings other : Settings} {holder : Identifier}

theorem of_config_of_means (part : HostPart) {value : part.Value}
    (hset : settings part.setting = some raw) (h : part.Means raw value) :
    part.of (settings.config holder) = value := by
  rw [of_config, hset, Option.bind_some, part.read?_eq_some_iff.mpr h]
  rfl

theorem of_config_of_meaningless (part : HostPart)
    (h : ∀ raw, settings part.setting = some raw → ¬ ∃ value, part.Means raw value) :
    part.of (settings.config holder) = part.of (.standard holder) := by
  rw [of_config]
  have hnothing : (settings part.setting).bind part.read? = none := by
    rw [Option.eq_none_iff_forall_ne_some]
    intro value hvalue
    obtain ⟨raw, hset, hread⟩ := Option.bind_eq_some_iff.mp hvalue
    exact h raw hset ⟨value, part.read?_eq_some_iff.mp hread⟩
  rw [hnothing]
  rfl

end

end HostPart

namespace HostConfig

/-- The settings in which a configuration is written. -/
def settings (config : HostConfig) : Settings := fun name =>
  (HostPart.all.find? fun part => part.setting = name).bind fun part =>
    part.written? (part.of config)

/-- The configuration is the default one but for the parts that settings
describe. -/
def IsPlain (config : HostConfig) : Prop :=
  config = HostPart.assemble fun part => part.of config

/-- Every part of the configuration can be put into a setting. -/
def IsWritable (config : HostConfig) : Prop := ∀ part : HostPart, part.IsWritable (part.of config)

variable {config other : HostConfig}

theorem settings_setting (config : HostConfig) (part : HostPart) :
    config.settings part.setting = part.written? (part.of config) := by
  rw [settings, part.find?_setting, Option.bind_some]

theorem isPlain_config (settings : Settings) (holder : Identifier) :
    (settings.config holder).IsPlain := rfl

theorem IsPlain.ext (h : config.IsPlain) (hother : other.IsPlain)
    (hparts : ∀ part : HostPart, part.of config = part.of other) : config = other := by
  rw [h, hother, funext hparts]

theorem config_settings (hplain : config.IsPlain) (hwritable : config.IsWritable)
    (holder : Identifier) : config.settings.config holder = config := by
  apply (isPlain_config config.settings holder).ext hplain
  intro part
  cases hwritten : part.written? (part.of config) with
  | none =>
      rw [part.eq_standard_of_written?_eq_none hwritten holder]
      apply part.of_config_of_meaningless
      intro raw hset
      rw [settings_setting, hwritten] at hset
      cases hset
  | some raw =>
      have hset : config.settings part.setting = some raw := by
        rw [settings_setting, hwritten]
      exact part.of_config_of_means hset (part.means_written (hwritable part) hwritten)

end HostConfig

namespace Settings

variable {settings other : Settings} {holder : Identifier}

theorem of_config_congr (part : HostPart)
    (h : settings part.setting = other part.setting) :
    part.of (settings.config holder) = part.of (other.config holder) := by
  rw [part.of_config, part.of_config, h]

theorem areSeeds_readSeeds (raw : String) : AreSeeds (readSeeds raw) := by
  intro body hmem
  have hcodes : body.toList ∈ (readSeeds raw).map String.toList :=
    List.mem_map_of_mem hmem
  rw [toList_readSeeds] at hcodes
  obtain ⟨htrimmed, hnonempty⟩ := List.mem_filter.mp hcodes
  obtain ⟨piece, hpiece, hbody⟩ := List.mem_map.mp htrimmed
  have hcomma : ',' ∉ piece := comma_notMem_of_mem_splitOn hpiece
  rw [← hbody] at hnonempty
  constructor
  case nonempty =>
      rintro rfl
      simp [hbody] at hnonempty
  case comma =>
      rw [← hbody]
      intro hin
      exact hcomma (trimBlanks_subset piece hin)
  case trimmed =>
      rw [← hbody]
      exact isTrimmed_trimBlanks piece

theorem areSeeds_config (settings : Settings) (holder : Identifier) :
    AreSeeds (settings.config holder).seedMessages := by
  change AreSeeds (((settings SettingName.seedMessages).map readSeeds).getD [])
  cases settings SettingName.seedMessages with
  | none => simp [AreSeeds]
  | some raw => exact areSeeds_readSeeds raw

/-- A configuration that is the default one but for its parts is read back from
the settings in which it is written.  Whatever the settings are, each part of
the configuration has the value that its own setting means, is as by default
where that setting means nothing, and follows no other setting; the seed
messages are fit to be such. -/
theorem config_follows_settings :
    (∀ config : HostConfig, config.IsPlain → config.IsWritable →
      ∀ holder : Identifier, config.settings.config holder = config) ∧
    ∀ (settings : Settings) (holder : Identifier),
      (settings.config holder).IsPlain ∧
      (∀ (part : HostPart) (raw : String) (value : part.Value),
        settings part.setting = some raw → part.Means raw value →
        part.of (settings.config holder) = value) ∧
      (∀ part : HostPart,
        (∀ raw, settings part.setting = some raw → ¬ ∃ value, part.Means raw value) →
        part.of (settings.config holder) = part.of (.standard holder)) ∧
      (∀ (part : HostPart) (other : Settings), settings part.setting = other part.setting →
        part.of (settings.config holder) = part.of (other.config holder)) ∧
      AreSeeds (settings.config holder).seedMessages := by
  constructor
  · intro config hplain hwritable holder
    exact HostConfig.config_settings hplain hwritable holder
  · intro settings holder
    refine ⟨HostConfig.isPlain_config settings holder, ?_, ?_, ?_,
      areSeeds_config settings holder⟩
    · intro part raw value hset hmeans
      exact part.of_config_of_means hset hmeans
    · intro part hmeaningless
      exact part.of_config_of_meaningless hmeaningless
    · intro part other hsame
      exact of_config_congr part hsame

/-- A configuration with no part as by default. -/
def bespoke : HostConfig where
  leaseName := " builds lock "
  queueName := "builds"
  singleton := false
  poisonQueue := false
  lease :=
    { LeaseConfig.standard (.timeOrdered 7) with
      leaseDuration := .ofSeconds (UInt64.size - 1)
      renewalInterval := .ofSeconds 0 }
  poller :=
    { PollingConfig.standard with
      visibilityTimeout := .ofSeconds 120
      maxDequeueCount := 4294967295
      maxPollingInterval := .ofSeconds 5 }
  serverUrl := some "redis://cache:6379"
  seedMessages := ["build", "deploy now"]

theorem isWritable_bespoke : bespoke.IsWritable := by
  intro part
  cases part with
  | holder | singleton | poisonQueue | maxDequeueCount => trivial
  | leaseName => exact (by decide : ¬ IsBlankText " builds lock ")
  | queueName => exact (by decide : ¬ IsBlankText "builds")
  | leaseDuration | leaseRenewal | visibilityTimeout | maxPollingInterval => exact rfl
  | serverUrl =>
      intro text htext
      cases htext
      decide
  | seedMessages =>
      intro body hmem
      simp only [HostPart.of, bespoke, List.mem_cons, List.not_mem_nil, or_false] at hmem
      rcases hmem with rfl | rfl
      · exact ⟨by decide, by decide, isTrimmed_iff.mpr (by decide)⟩
      · exact ⟨by decide, by decide, isTrimmed_iff.mpr (by decide)⟩

/-- One setting is malformed, one is spelled out of the ordinary. -/
def careless : Settings := fun name =>
  if name = SettingName.leaseDuration then some "-3"
  else if name = SettingName.singleton then some " OFF "
  else none

theorem config_follows_bespoke_careless :
    bespoke.settings.config (.timeOrdered 0) = bespoke ∧
    HostPart.singleton.of (careless.config (.timeOrdered 0)) = false ∧
    HostPart.leaseDuration.of (careless.config (.timeOrdered 0)) = Duration.ofSeconds 15 := by
  obtain ⟨hmeans, hmeaningless, -⟩ :=
    (config_follows_settings.2 careless (.timeOrdered 0)).2
  refine ⟨config_follows_settings.1 bespoke rfl isWritable_bespoke _, ?_, ?_⟩
  · exact hmeans .singleton " OFF " false rfl (by change _ ∈ flagWords false; decide)
  · apply hmeaningless .leaseDuration
    rintro raw hset ⟨d, hmeans⟩
    obtain rfl : "-3" = raw := Option.some.inj hset
    have hread : HostPart.leaseDuration.read? "-3" = none := by decide
    rw [(HostPart.read?_eq_some_iff .leaseDuration).mpr hmeans] at hread
    cases hread

end Settings

end LeasedListener
