import NoreplyGateway.ConfigFile

namespace NoreplyGateway

open Outcome Toml

section Reading

variable {α : Type} {read : Value → Except String α} {table : List (String × Value)}
  {key negative : String} {default : α} {v : Value}

@[simp] theorem field_head : field read ((key, v) :: table) key default = read v := by
  rw [field, List.lookup_cons_self]

@[simp] theorem field_tail {key' : String} (h : key ≠ key') :
    field read ((key', v) :: table) key default = field read table key default := by
  rw [field, List.lookup_cons, beq_false_of_ne h]
  rfl

@[simp] theorem asNatural_integer (n : ℕ) : asNatural negative (.integer n) = .ok n := by
  rw [asNatural, if_neg (by omega)]
  rfl

@[simp] theorem asTexts_array (l : List String) : asTexts (.array (l.map .string)) = .ok l := by
  rw [asTexts]
  induction l with
  | nil => rfl
  | cons s l ih =>
    rw [List.map_cons, List.mapM_cons, asText, ih]
    rfl

@[simp] theorem asBackend_text (kind : BackendKind) : asBackend (.string kind.text) = .ok kind := by
  cases kind <;> rfl

@[simp] theorem asPolicy_text (policy : RecipientPolicy) : asPolicy (.string policy.text) = .ok policy := by
  cases policy <;> rfl

@[simp] theorem asText_string (s : String) : asText (.string s) = .ok s := rfl

@[simp] theorem asRate_float (q : ℚ) : asRate (.float q) = .ok q := rfl

@[simp] theorem asFlag_boolean (b : Bool) : asFlag (.boolean b) = .ok b := rfl

@[simp] theorem ok_bind {β : Type} (a : α) (f : α → Except String β) : (Except.ok a >>= f) = f a := rfl

/-! The entries of a section give the section back. -/

theorem SMTPConfig.ofTable_asdict (c : SMTPConfig) : ofTable (entriesRead c.asdict) = .ok c := by
  simp [ofTable, asdict, entriesRead, ofJson]

theorem WebConfig.ofTable_asdict (c : WebConfig) : ofTable (entriesRead c.asdict) = .ok c := by
  simp [ofTable, asdict, entriesRead, ofJson]

theorem AccountConfig.ofTable_asdict (c : AccountConfig) : ofTable (entriesRead c.asdict) = .ok c := by
  simp [ofTable, asdict, entriesRead, ofJson]

theorem AdditionalConfig.ofTable_asdict (c : AdditionalConfig) : ofTable (entriesRead c.asdict) = .ok c := by
  simp [ofTable, asdict, entriesRead, ofJson]

theorem QueueConfig.ofTable_asdict (c : QueueConfig) : ofTable (entriesRead c.asdict) = .ok c := by
  simp [ofTable, asdict, entriesRead, ofJson]

theorem DeliveryConfig.ofTable_asdict (c : DeliveryConfig) : ofTable (entriesRead c.asdict) = .ok c := by
  simp [ofTable, asdict, entriesRead, ofJson]

end Reading

namespace Config

variable {lib : ConfigLibrary} {config config' : Config} {text : List Char} {doc : Document}

/-- What the text of a configuration says. -/
def document (config : Config) : Document where
  root := [("data_dir", .string (String.ofList config.dataDir.str))]
  tables := (config.sections.map (fun s ↦ (s.1, entriesRead s.2))).reverse

theorem section_of_lookup {name : String} {entries known : Entries}
    (hkeys : entries.map Prod.fst = known.map Prod.fst)
    (h : doc.tables.lookup name = some (entriesRead entries)) :
    doc.section name known = .ok (entriesRead entries) := by
  have hnone : ((entriesRead entries).map Prod.fst).filter (· ∉ known.map Prod.fst) = [] := by
    rw [entriesRead_keys, hkeys, List.filter_eq_nil_iff]
    intro key hmem
    simp [hmem]
  rw [Document.section, h]
  exact if_pos hnone

theorem locate_absolute {path : PosixPath} (h : path.IsAbsolute) : lib.locate path = path := by
  simp [ConfigLibrary.locate, h]

theorem dataDir_document (h : config.dataDir.IsAbsolute) :
    config.document.dataDir lib = .ok config.dataDir := by
  have htables : "data_dir" ∉ config.document.tables.map Prod.fst := by
    simp [document, sections]
  rw [Document.dataDir, if_neg htables, document, field_head, asText_string, Except.map,
    String.toList_ofList, PosixPath.parse_str h, locate_absolute h]

/-- The document of a configuration is read as its sections, which are then
checked. -/
theorem loadConfig_document (h : loads lib.float text = .ok config.document)
    (habs : config.dataDir.IsAbsolute) : loadConfig lib text = config.validateAll lib := by
  have hunknown : (config.document.root.map Prod.fst ++
      config.document.tables.map Prod.fst).filter (· ∉ topLevel) = [] := by
    simp [document, sections, topLevel]
  have hsmtp : config.document.section "smtp" (SMTPConfig.asdict {}) =
      .ok (entriesRead config.smtp.asdict) := section_of_lookup rfl rfl
  have hweb : config.document.section "web" (WebConfig.asdict {}) =
      .ok (entriesRead config.web.asdict) := section_of_lookup rfl rfl
  have haccount : config.document.section "account" (AccountConfig.asdict {}) =
      .ok (entriesRead config.account.asdict) := section_of_lookup rfl rfl
  have hadditional : config.document.section "additional" (AdditionalConfig.asdict {}) =
      .ok (entriesRead config.additional.asdict) := section_of_lookup rfl rfl
  have hqueue : config.document.section "queue" (QueueConfig.asdict {}) =
      .ok (entriesRead config.queue.asdict) := section_of_lookup rfl rfl
  have hdelivery : config.document.section "delivery" (DeliveryConfig.asdict {}) =
      .ok (entriesRead config.delivery.asdict) := section_of_lookup rfl rfl
  rw [loadConfig, h]
  simp only [ok_bind, hunknown, ne_eq, not_true_eq_false, if_false, dataDir_document habs, hsmtp,
    hweb, haccount, hadditional, hqueue, hdelivery, SMTPConfig.ofTable_asdict,
    WebConfig.ofTable_asdict, AccountConfig.ofTable_asdict, AdditionalConfig.ofTable_asdict,
    QueueConfig.ofTable_asdict, DeliveryConfig.ofTable_asdict]

theorem section_names (config : Config) : (config.sections.map Prod.fst).Nodup := by
  change ["smtp", "web", "account", "additional", "queue", "delivery"].Nodup
  decide

theorem section_keys (config : Config) : ∀ s ∈ config.sections, (s.2.map Prod.fst).Nodup := by
  simp [sections, SMTPConfig.asdict, WebConfig.asdict, AccountConfig.asdict,
    AdditionalConfig.asdict, QueueConfig.asdict, DeliveryConfig.asdict]

theorem mem_values {v : Json.Value} : v ∈ config.values ↔
    v = .text (String.ofList config.dataDir.str) ∨ ∃ s ∈ config.sections, ∃ e ∈ s.2, v = e.2 := by
  simp only [values, List.mem_cons, List.mem_flatMap, List.mem_map, eq_comm]

def AllReadable (config : Config) : Prop := ∀ v ∈ config.values, Readable v

instance : DecidablePred AllReadable := fun config ↦
  decidable_of_iff (config.values.all (fun v ↦ decide (Readable v)) = true) (by simp [AllReadable])

theorem allReadable_iff : config.AllReadable ↔
    Readable (.text (String.ofList config.dataDir.str)) ∧ SectionsReadable config.sections := by
  constructor
  · intro h
    exact ⟨h _ (mem_values.mpr (.inl rfl)),
      fun s hs e he ↦ h _ (mem_values.mpr (.inr ⟨s, hs, e, he, rfl⟩))⟩
  · rintro ⟨hdir, hsections⟩ v hv
    rcases mem_values.mp hv with rfl | ⟨s, hs, e, he, rfl⟩
    · exact hdir
    · exact hsections s hs e he

theorem foldlM_headLines (config : Config) : config.headLines.foldlM Line.apply {} =
    if Readable (.text (String.ofList config.dataDir.str)) then
      .ok ⟨[("data_dir", .string (String.ofList config.dataDir.str))], []⟩
    else .error notScalar := by
  have hlines : ∀ a b v, [Line.comment a, .comment b, .entry "data_dir" v, .blank].foldlM
      Line.apply {} = if Readable v then .ok ⟨[("data_dir", ofJson v)], []⟩ else .error notScalar := by
    intro a b v
    simp only [List.foldlM_cons, List.foldlM_nil, Line.apply, ok_bind]
    split_ifs <;> rfl
  exact hlines _ _ _

/-- The lines of a configuration, read in order. -/
theorem foldlM_lines (config : Config) : config.lines.foldlM Line.apply {} =
    if config.AllReadable then .ok config.document else .error notScalar := by
  let top : Document := ⟨[("data_dir", .string (String.ofList config.dataDir.str))], []⟩
  have hfresh : ∀ s ∈ config.sections,
      s.1 ∉ top.tables.map Prod.fst ∧ s.1 ∉ top.root.map Prod.fst := by
    simp [sections, top]
  have hsections : (config.sections.flatMap sectionLines).foldlM Line.apply top =
      if SectionsReadable config.sections then .ok config.document else .error notScalar := by
    rw [foldlM_sections (section_names config) (section_keys config) hfresh, List.append_nil,
      document]
  rw [lines, List.foldlM_append]
  by_cases hdir : Readable (.text (String.ofList config.dataDir.str))
  · have hhead : config.headLines.foldlM Line.apply {} = .ok top := by
      rw [foldlM_headLines, if_pos hdir]
    rw [hhead, ok_bind, hsections]
    by_cases hall : SectionsReadable config.sections
    · rw [if_pos hall, if_pos (allReadable_iff.mpr ⟨hdir, hall⟩)]
    · rw [if_neg hall, if_neg (fun h ↦ hall (allReadable_iff.mp h).2)]
  · have hhead : config.headLines.foldlM Line.apply {} = .error notScalar := by
      rw [foldlM_headLines, if_neg hdir]
    rw [hhead, if_neg (fun h ↦ hdir (allReadable_iff.mp h).1)]
    rfl

theorem exists_lines (config : Config) : ∃ front, config.lines = front ++ [.blank] :=
  ⟨_, (List.dropLast_concat_getLast (by simp [lines, sections, sectionLines])).symm.trans
    (congrArg _ (by simp [lines, sections, sectionLines]))⟩

theorem mem_lines {line : Line} (h : line ∈ config.lines) :
    line = .blank ∨ line ∈ config.headLines ∨
      ∃ s ∈ config.sections, line = .table s.1 ∨ ∃ e ∈ s.2, line = .entry e.1 e.2 := by
  rcases List.mem_append.mp h with hhead | hsection
  · exact .inr (.inl hhead)
  obtain ⟨s, hs, hmem⟩ := List.mem_flatMap.mp hsection
  rcases List.mem_cons.mp hmem with rfl | hmem
  · exact .inr (.inr ⟨s, hs, .inl rfl⟩)
  rcases List.mem_append.mp hmem with hmem | hmem
  · obtain ⟨e, he, rfl⟩ := List.mem_map.mp hmem
    exact .inr (.inr ⟨s, hs, .inr ⟨e, he, rfl⟩⟩)
  · exact .inl (List.mem_singleton.mp hmem)

theorem bare_names (config : Config) : ∀ s ∈ config.sections, IsBareKey s.1 := by
  simp [sections, IsBareKey, isBareKey]

theorem bare_keys (config : Config) :
    ∀ s ∈ config.sections, ∀ key ∈ s.2.map Prod.fst, IsBareKey key := by
  simp only [sections, List.forall_mem_cons, SMTPConfig.asdict, WebConfig.asdict,
    AccountConfig.asdict, AdditionalConfig.asdict, QueueConfig.asdict, DeliveryConfig.asdict,
    List.map_cons, List.map_nil, IsBareKey]
  simp [isBareKey]

/-- The floats of a configuration are its rates. -/
theorem rate_mem {q : ℚ} (h : .rate q ∈ config.values) : q ∈ config.rates := by
  simpa [values, sections, SMTPConfig.asdict, WebConfig.asdict, AccountConfig.asdict,
    AdditionalConfig.asdict, QueueConfig.asdict, DeliveryConfig.asdict, rates] using h

theorem wellFormed_lines (hfloat : ∀ q ∈ config.rates, Prints lib.repr lib.float q) :
    ∀ line ∈ config.lines, line.WellFormed lib.repr lib.float := by
  intro line hline
  rcases mem_lines hline with rfl | hhead | ⟨s, hs, rfl | ⟨e, he, rfl⟩⟩
  · trivial
  · have hkey : IsBareKey "data_dir" := by simp [IsBareKey, isBareKey]
    simp only [headLines, List.mem_cons, List.not_mem_nil, or_false] at hhead
    rcases hhead with rfl | rfl | rfl | rfl
    · simp [Line.WellFormed, Printable]
    · simp [Line.WellFormed, Printable]
    · exact ⟨hkey, fun q hq ↦ by cases hq⟩
    · trivial
  · exact bare_names config s hs
  · refine ⟨bare_keys config s hs e.1 (List.mem_map_of_mem he), ?_⟩
    intro q hq
    exact hfloat q (rate_mem (mem_values.mpr (.inr ⟨s, hs, e, he, hq.symm⟩)))

/-- Loading the text of a configuration checks the configuration, unless the
text has the escape of a surrogate. -/
theorem loadConfig_text (hfloat : ∀ q ∈ config.rates, Prints lib.repr lib.float q)
    (habs : config.dataDir.IsAbsolute) (h : config.text lib.repr = .ok text) :
    loadConfig lib text =
      if config.AllReadable then config.validateAll lib else .error notScalar := by
  obtain ⟨front, hfront⟩ := exists_lines config
  have hwell : ∀ line ∈ front, line.WellFormed lib.repr lib.float := by
    intro line hline
    refine wellFormed_lines hfloat line ?_
    rw [hfront]
    exact List.mem_append_left _ hline
  have hfold : front.foldlM Line.apply {} = config.lines.foldlM Line.apply {} := by
    have hblank : ∀ x : Except String Document,
        (x >>= fun doc ↦ [Line.blank].foldlM Line.apply doc) = x := by
      intro x
      cases x <;> rfl
    rw [hfront, List.foldlM_append]
    exact (hblank _).symm
  have hloads : loads lib.float text =
      if config.AllReadable then .ok config.document else .error notScalar := by
    rw [Config.text, hfront] at h
    rw [loads_render hwell h, hfold, foldlM_lines]
  by_cases hreadable : config.AllReadable
  · rw [if_pos hreadable] at hloads ⊢
    exact loadConfig_document hloads habs
  · rw [if_neg hreadable] at hloads ⊢
    rw [loadConfig, hloads]
    rfl

/-- Only an integer that is too long has no text. -/
theorem exists_text : (∃ text, config.text lib.repr = .ok text) ↔
    ∀ n, .number n ∈ config.values → n < 10 ^ maxDigits := by
  refine exists_render.trans ⟨?_, ?_⟩
  · intro h n hn
    rcases mem_values.mp hn with hdir | ⟨s, hs, e, he, hvalue⟩
    · cases hdir
    have hline : .entry e.1 e.2 ∈ config.lines :=
      List.mem_append_right _ (List.mem_flatMap.mpr ⟨s, hs, by
        simp only [sectionLines, List.mem_cons, List.mem_append, List.mem_map]
        exact .inr (.inl ⟨e, he, rfl⟩)⟩)
    obtain ⟨text, ht⟩ := h _ hline
    obtain ⟨t, hv, -⟩ := map_eq_ok.mp ht
    by_contra hlarge
    rw [← hvalue] at hv
    exact not_dumps hlarge hv
  · intro h line hline
    have hentry : ∀ key v, v ∈ config.values → ∃ text, (Line.entry key v).text lib.repr = .ok text := by
      intro key v hv
      obtain ⟨t, ht⟩ : ∃ t, v.dumps lib.repr = .ok t := exists_dumps (fun n hn ↦ h n (hn ▸ hv))
      exact ⟨_, map_eq_ok.mpr ⟨t, ht, rfl⟩⟩
    rcases mem_lines hline with rfl | hhead | ⟨s, hs, rfl | ⟨e, he, rfl⟩⟩
    · exact ⟨_, rfl⟩
    · simp only [headLines, List.mem_cons, List.not_mem_nil, or_false] at hhead
      rcases hhead with rfl | rfl | rfl | rfl
      · exact ⟨_, rfl⟩
      · exact ⟨_, rfl⟩
      · exact hentry _ _ (mem_values.mpr (.inl rfl))
      · exact ⟨_, rfl⟩
    · exact ⟨_, rfl⟩
    · exact hentry _ _ (mem_values.mpr (.inr ⟨s, hs, e, he, rfl⟩))

/-- Every character is in the basic plane, and every integer can be converted to
text. -/
def Writable (config : Config) : Prop :=
  config.AllReadable ∧ ∀ n, .number n ∈ config.values → n < 10 ^ maxDigits

theorem config_roundtrip_iff (hv : config.validateAll lib = .ok config')
    (habs : config'.dataDir.IsAbsolute)
    (hfloat : ∀ q ∈ config'.rates, Prints lib.repr lib.float q) :
    (∃ text, config'.text lib.repr = .ok text ∧ loadConfig lib text = .ok config') ↔
      config'.Writable := by
  have hvalid : config'.validateAll lib = .ok config' := validateAll_idempotent hv
  constructor
  · rintro ⟨text, htext, hload⟩
    rw [loadConfig_text hfloat habs htext] at hload
    split_ifs at hload with hreadable
    exact ⟨hreadable, exists_text.mp ⟨text, htext⟩⟩
  · rintro ⟨hreadable, hnumbers⟩
    obtain ⟨text, htext⟩ := exists_text.mpr hnumbers
    refine ⟨text, htext, ?_⟩
    rw [loadConfig_text hfloat habs htext, if_pos hreadable]
    exact hvalid

section Samples

/-- A decimal with three places, as `repr` writes it. -/
def sampleRepr (q : ℚ) : List Char :=
  let n := (q * 1000).floor.toNat
  let digits := Nat.toDigits 10 (n % 1000)
  let fraction := (List.replicate (3 - digits.length) '0' ++ digits).rdropWhile (· = '0')
  Nat.toDigits 10 (n / 1000) ++ '.' :: (if fraction = [] then ['0'] else fraction)

def sampleFloat (text : List Char) : PyFloat :=
  match text.splitOn '.' with
  | [whole, fraction] =>
    ((Nat.ofDigitChars 10 (whole ++ fraction) 0 / 10 ^ fraction.length : ℚ) : PyFloat)
  | _ => .nan

def sampleLibrary : ConfigLibrary where
  email := plainEmail
  ipNetwork s := match s.toList.splitOn '/' with
    | [_, prefixlen] => .ok (Nat.ofDigitChars 10 prefixlen 0)
    | _ => .ok 32
  ipAddress _ := .ok ()
  netlocAllowed _ := true
  repr := sampleRepr
  float := sampleFloat
  expandUser path := path
  resolve path := path

/-- The defaults, with a sender, a directory and a marker. -/
def fileConfig (marker : String) : Config where
  dataDir := PosixPath.parse "/var/lib/noreply".toList
  account := { sender := "noreply@example.com", natMarker := marker }

theorem prints_sample {q : ℚ} (n : ℕ) (digits : List Char)
    (hd : (!digits.isEmpty && digits.all Char.isDigit) = true)
    (h : sampleRepr q = Nat.toDigits 10 n ++ '.' :: digits ∧
      sampleFloat (Nat.toDigits 10 n ++ '.' :: digits) = q) :
    Prints sampleRepr sampleFloat q := by
  obtain ⟨hr, hf⟩ := h
  have hd : digits ≠ [] ∧ ∀ c ∈ digits, c.isDigit = true := by simpa using hd
  let t : FloatText :=
    { whole := Nat.toDigits 10 n
      fraction := '.' :: digits
      exponent := []
      isWhole := isWhole_toDigits n
      isFraction := .inr ⟨digits, rfl, hd⟩
      isExponent := .inl rfl
      isFloat := by simp }
  have htext : t.text = Nat.toDigits 10 n ++ '.' :: digits := by simp [t, FloatText.text]
  exact ⟨t, hr.trans htext.symm, by rw [htext, hf]⟩

theorem prints_rates (marker : String) :
    ∀ q ∈ (fileConfig marker).rates, Prints sampleRepr sampleFloat q := by
  simp only [rates, fileConfig, List.forall_mem_cons]
  refine ⟨prints_sample 60 ['0'] rfl (by decide +kernel),
    prints_sample 120 ['0'] rfl (by decide +kernel),
    prints_sample 0 ['0', '0', '5'] rfl (by decide +kernel),
    prints_sample 0 ['5'] rfl (by decide +kernel),
    prints_sample 72 ['0'] rfl (by decide +kernel),
    prints_sample 60 ['0'] rfl (by decide +kernel),
    prints_sample 10 ['0'] rfl (by decide +kernel),
    prints_sample 15 ['0'] rfl (by decide +kernel),
    prints_sample 3600 ['0'] rfl (by decide +kernel),
    prints_sample 70 ['0'] rfl (by decide +kernel),
    List.forall_mem_nil _⟩

/-- The marker is checked with the account only. -/
theorem fileConfig_valid {marker : String}
    (haccount : (fileConfig marker).validateAccount plainEmail = .ok ()) :
    (fileConfig marker).validateAll sampleLibrary = .ok (fileConfig marker) := by
  have hids : (fileConfig "").validateIdentifiers = .ok () := by decide +kernel
  have hnetworks : (fileConfig "").validateNetworks sampleLibrary = .ok () := by decide +kernel
  have hdomains : (fileConfig "").validateDomains = .ok () := by decide +kernel
  have hports : (fileConfig "").validatePorts = .ok () := by decide +kernel
  have hlimits : (fileConfig "").validateLimits = .ok () := by decide +kernel
  have htls : (fileConfig "").validateTls = .ok () := by decide +kernel
  have hendpoint : (fileConfig "").validateEndpoint sampleLibrary = .ok () := by decide +kernel
  have hbase : (fileConfig "").validateBase sampleLibrary = .ok () := by decide +kernel
  have hproxies : (fileConfig "").validateProxies sampleLibrary = .ok () := by decide +kernel
  have hredirects : (fileConfig "").validateRedirects sampleLibrary = .ok () := by decide +kernel
  have hurl : String.ofList (stripSlashes "http://127.0.0.1:8080".toList) =
      "http://127.0.0.1:8080" := by decide +kernel
  have hnormal : (fileConfig marker).normalized = fileConfig marker :=
    congrArg (fun url ↦ { fileConfig marker with web := { baseUrl := url } }) hurl
  simp only [validateAll, do_eq_ok]
  exact ⟨(), haccount, (), hids, (), hnetworks, (), hdomains, (), hports, (), hlimits, (), htls, (),
    hendpoint, (), hbase, (), hproxies, (), hredirects, congrArg _ hnormal⟩

theorem fileConfig_absolute (marker : String) : (fileConfig marker).dataDir.IsAbsolute := by
  have habs : (PosixPath.parse "/var/lib/noreply".toList).IsAbsolute := by decide +kernel
  exact habs

theorem small_numbers (marker : String) :
    ∀ n, .number n ∈ (fileConfig marker).values → n < 10 ^ maxDigits := by
  intro n hn
  have hsmall : n < 10 ^ 10 := by
    simp [values, sections, fileConfig, SMTPConfig.asdict, WebConfig.asdict, AccountConfig.asdict,
      AdditionalConfig.asdict, QueueConfig.asdict, DeliveryConfig.asdict] at hn
    omega
  exact hsmall.trans_le (Nat.pow_le_pow_right (by decide) (by decide))

theorem config_roundtrip_sample :
    (fileConfig "_NAT_").validateAll sampleLibrary = .ok (fileConfig "_NAT_") ∧
      ∃ text, (fileConfig "_NAT_").text sampleRepr = .ok text ∧
        loadConfig sampleLibrary text = .ok (fileConfig "_NAT_") := by
  have hv : (fileConfig "_NAT_").validateAll sampleLibrary = .ok (fileConfig "_NAT_") :=
    fileConfig_valid (by decide +kernel)
  have hreadable : (fileConfig "_NAT_").AllReadable := by decide +kernel
  exact ⟨hv, (config_roundtrip_iff hv (fileConfig_absolute _) (prints_rates _)).mpr
    ⟨hreadable, small_numbers _⟩⟩

/-- A marker outside of the basic plane is accepted, and its file is refused. -/
theorem roundtrip_fails_outside_plane :
    (fileConfig (String.singleton (Char.ofNat 128512))).validateAll sampleLibrary =
        .ok (fileConfig (String.singleton (Char.ofNat 128512))) ∧
      (fileConfig (String.singleton (Char.ofNat 128512))).dataDir.IsAbsolute ∧
      ∃ text, (fileConfig (String.singleton (Char.ofNat 128512))).text sampleRepr = .ok text ∧
        loadConfig sampleLibrary text = .error notScalar := by
  have hv : (fileConfig (String.singleton (Char.ofNat 128512))).validateAll sampleLibrary =
      .ok (fileConfig (String.singleton (Char.ofNat 128512))) := fileConfig_valid (by decide +kernel)
  have hreadable : ¬(fileConfig (String.singleton (Char.ofNat 128512))).AllReadable := by
    decide +kernel
  obtain ⟨text, htext⟩ : ∃ text, (fileConfig (String.singleton (Char.ofNat 128512))).text
      sampleLibrary.repr = .ok text := exists_text.mpr (small_numbers _)
  refine ⟨hv, fileConfig_absolute _, text, htext, ?_⟩
  exact (loadConfig_text (prints_rates _) (fileConfig_absolute _) htext).trans (if_neg hreadable)

end Samples

end Config

end NoreplyGateway
