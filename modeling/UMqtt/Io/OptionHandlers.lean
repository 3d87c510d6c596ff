/-
  UMqtt.Io.OptionHandlers — saving the options of a TLS io and feeding them to another one
  (uMQTT/ports/src/tlsio_mbedtls.c, xio.c, socketio_berkeley.c, optionhandler.c).

  An option handler is a list of names and values, with the functions of the layer that made
  it: `cloneOption` when a value is saved, `setOption` when it is fed. A value is a
  `const void*`; what is behind it is known to the layer only, and read as something else it
  has no meaning (`none`). The handler of the TLS layer holds that of its `xio`, and that one
  the handler of the socket. Certificates and keys stand in memory that does not change.

  The TLS layer saves the handler of its `xio` under "underlying_io_options", first, and has
  no branch for that name when it is fed: the name goes down to the socket, which refuses it.
  So `OptionHandler_FeedOptions` stops there with an error, and nothing is set, whatever was
  set in the first io (`options_lost`). Behind that, the trusted certificate is saved in a form
  that cannot be fed (`savedCert_unreadable`), and the client's is not saved (`own_unsaved`).
  Fed to the `xio` itself, its handler does restore the MAC address (`underlying_restored`).
-/

import UMqtt.Crt.Strings
import UMqtt.Io.OwnCert

namespace UMqtt.Io.OptionHandlers

open UMqtt.Crt UMqtt.Io.OwnCert

/-! ## Names and values -/

def optionTrustedCert : String := "TrustedCerts"
def optionX509EccCert : String := "x509EccCertificate"
def optionX509EccKey : String := "x509EccAliasKey"
def optionUnderlyingIoOptions : String := "underlying_io_options"
def concreteOptions : String := "concreteOptions"
def optionNetIntMacAddress : String := "net_interface_mac_address"

/-- Whose `cloneOption` and `setOption` an option handler has. -/
inductive Layer where
  | tlsio
  | xio
  | socketio
  deriving DecidableEq, Repr

inductive Value where
  /-- A string of the heap. -/
  | text (s : CString)
  /-- The address of text that nothing has been read of yet. -/
  | pointer (p : Nat)
  /-- A `TLSIO_CERT_INSTANCE` or `TLSIO_KEY_INSTANCE`. -/
  | material (m : Material)
  | integer (n : Int)
  | handler (layer : Layer) (storage : List (String × Value))

abbrev Storage := List (String × Value)

/-- What the library functions answer, and what stands in memory. -/
structure Surroundings where
  memory : Nat → List UInt8
  parses : TlsOptions → OptionName → Material → Bool
  refuses : ∀ io name m, m.pointer = none → parses io name m = false
  setsockopt : String → Value → Nat

def readText (env : Surroundings) : Value → Option CString
  | .text s => some s
  | .pointer p => if 0 ∈ env.memory p then some (CString.ofBlock (env.memory p)) else none
  | _ => none

/-! ## optionhandler.c -/

inductive OptionHandlerResult where
  | ok
  | error
  | invalidArg
  deriving DecidableEq, Repr

/-- `OptionHandler_Create`: a handler with an empty vector. -/
def optionHandlerCreate (ms : Mallocs) : Option Storage × Mallocs :=
  match malloc 16 ms with
  | (none, ms) => (none, ms)
  | (some _, ms) =>
    match malloc 12 ms with
    | (none, ms) => (none, ms)
    | (some _, ms) => (some [], ms)

/-- `OptionHandler_AddOption`. Without memory for the name, `mallocAndStrcpy_s` writes through NULL. -/
def optionHandlerAddOption (cloneOption : String → Value → Mallocs → Option (Option Value × Mallocs))
    (storage : Storage) (name : String) (value : Option Value) (ms : Mallocs) : Option (OptionHandlerResult × Storage × Mallocs) :=
  match value with
  | none => some (.invalidArg, storage, ms)
  | some value =>
    match malloc (name.length + 1) ms with
    | (none, _) => none
    | (some _, ms) => do
      let (cloneOfValue, ms) ← cloneOption name value ms
      match cloneOfValue with
      | none => some (.error, storage, ms)
      | some cloneOfValue =>
        match malloc (8 * (storage.length + 1)) ms with
        | (none, ms) => some (.error, storage, ms)
        | (some _, ms) => some (.ok, storage ++ [(name, cloneOfValue)], ms)

/-- `OptionHandler_FeedOptions`, of a handler and a destination that are not NULL. -/
def optionHandlerFeedOptions {W : Type} (setOption : String → Option Value → W → Mallocs → Option (Nat × W × Mallocs)) :
    Storage → W → Mallocs → Option (OptionHandlerResult × W × Mallocs)
  | [], w, ms => some (.ok, w, ms)
  | (name, value) :: storage, w, ms => do
    let (result, w, ms) ← setOption name (some value) w ms
    if result ≠ 0 then some (.error, w, ms) else optionHandlerFeedOptions setOption storage w ms

/-! ## socketio_berkeley.c -/

structure SocketIo where
  targetMacAddress : Option CString
  deriving DecidableEq, Repr

def toupper (b : UInt8) : UInt8 := if 97 ≤ b ∧ b ≤ 122 then b - 32 else b

theorem toupper_toNat (b : UInt8) :
    (toupper b).toNat = if 97 ≤ b.toNat ∧ b.toNat ≤ 122 then b.toNat - 32 else b.toNat := by
  have hb : (97 ≤ b ∧ b ≤ 122) ↔ (97 ≤ b.toNat ∧ b.toNat ≤ 122) := by
    simp only [UInt8.le_iff_toNat_le]
    rfl
  unfold toupper
  by_cases h : 97 ≤ b ∧ b ≤ 122
  · have h32 : 32 ≤ b := UInt8.le_iff_toNat_le.mpr (le_trans (by decide) (hb.mp h).1)
    rw [if_pos h, if_pos (hb.mp h), UInt8.toNat_sub_of_le b 32 h32]
    rfl
  · rw [if_neg h, if_neg (mt hb.mpr h)]

theorem toupper_ne_zero {b : UInt8} (h : b ≠ 0) : toupper b ≠ 0 := by
  have hb : b.toNat ≠ 0 := fun he => h (UInt8.toNat_inj.mp he)
  intro he
  have ht := toupper_toNat b
  rw [he, UInt8.toNat_zero] at ht
  split at ht <;> omega

theorem toupper_toupper (b : UInt8) : toupper (toupper b) = toupper b := by
  apply UInt8.toNat_inj.mp
  have ht := toupper_toNat b
  rw [toupper_toNat (toupper b)]
  split at ht <;> split <;> omega

theorem strtoup_noNul (s : CString) : 0 ∉ s.bytes.map toupper := by
  intro h
  obtain ⟨b, hb, hz⟩ := List.mem_map.mp h
  exact toupper_ne_zero (ne_of_mem_of_not_mem hb s.noNul) hz

def strtoup (s : CString) : CString := ⟨s.bytes.map toupper, strtoup_noNul s⟩

theorem strtoup_strtoup (s : CString) : strtoup (strtoup s) = strtoup s := by
  apply CString.ext
  have hb : (s.bytes.map toupper).map toupper = s.bytes.map toupper := by
    rw [List.map_map]
    exact List.map_congr_left fun b _ => toupper_toupper b
  exact hb

def socketioSetoption (env : Surroundings) (optionName : String) (value : Option Value) (io : SocketIo) (ms : Mallocs) :
    Option (Nat × SocketIo × Mallocs) :=
  match value with
  | none => some (failure, io, ms)
  | some value =>
    if optionName = "tcp_keepalive" ∨ optionName = "tcp_keepalive_time" ∨ optionName = "tcp_keepalive_interval" then
      some (env.setsockopt optionName value, io, ms)
    else if optionName = optionNetIntMacAddress then do
      let s ← readText env value
      if s.strlen = 0 then some (failure, io, ms)
      else match malloc (s.strlen + 1) ms with
        | (none, ms) => some (failure, { io with targetMacAddress := none }, ms)
        | (some _, ms) => some (0, { io with targetMacAddress := some (strtoup s) }, ms)
    else some (failure, io, ms)

def socketioCloneOption (env : Surroundings) (name : String) (value : Value) (ms : Mallocs) :
    Option (Option Value × Mallocs) :=
  if name = optionNetIntMacAddress then do
    let s ← readText env value
    match malloc (s.strlen + 1) ms with
    | (none, ms) => some (none, ms)
    | (some _, ms) => some (some (.text s), ms)
  else some (none, ms)

def socketioRetrieveoptions (env : Surroundings) (io : SocketIo) (ms : Mallocs) : Option (Option Storage × Mallocs) :=
  match optionHandlerCreate ms with
  | (none, ms) => some (none, ms)
  | (some result, ms) =>
    match io.targetMacAddress with
    | none => some (some result, ms)
    | some mac => do
      let (r, result, ms) ← optionHandlerAddOption (socketioCloneOption env) result optionNetIntMacAddress
        (some (.text mac)) ms
      some (if r = .ok then some result else none, ms)

/-! ## xio.c, over a socket -/

def xioSetoption (env : Surroundings) (optionName : String) (value : Option Value) (io : SocketIo) (ms : Mallocs) :
    Option (Nat × SocketIo × Mallocs) :=
  if optionName = concreteOptions then
    match value with
    | some (.handler .socketio storage) => do
      let (r, io, ms) ← optionHandlerFeedOptions (socketioSetoption env) storage io ms
      some (if r ≠ .ok then failure else 0, io, ms)
    | none => some (failure, io, ms)
    | _ => none
  else socketioSetoption env optionName value io ms

def xioCloneOption (name : String) (value : Value) (ms : Mallocs) : Option (Option Value × Mallocs) :=
  some (if name = concreteOptions then some value else none, ms)

def xioRetrieveoptions (env : Surroundings) (io : SocketIo) (ms : Mallocs) : Option (Option Storage × Mallocs) :=
  match optionHandlerCreate ms with
  | (none, ms) => some (none, ms)
  | (some result, ms) => do
    let (options, ms) ← socketioRetrieveoptions env io ms
    match options with
    | none => some (none, ms)
    | some options => do
      let (r, result, ms) ← optionHandlerAddOption xioCloneOption result concreteOptions
        (some (.handler .socketio options)) ms
      some (if r = .ok then some result else none, ms)

/-! ## tlsio_mbedtls.c -/

structure TlsIo where
  options : TlsOptions
  socketIo : SocketIo
  deriving DecidableEq, Repr

def tlsioMbedtlsCreate : TlsIo := ⟨created, ⟨none⟩⟩

/-- One of the three options of the TLS layer, whose value is read as a certificate or a key. -/
def setMaterial (env : Surroundings) (name : OptionName) (value : Option Value) (io : TlsIo) (ms : Mallocs) :
    Option (Nat × TlsIo × Mallocs) :=
  match value with
  | some (.material m) =>
    let call : OwnCert.Setting := ⟨name, m, env.parses io.options name m, env.refuses io.options name m⟩
    let r := OwnCert.tlsioMbedtlsSetoption call io.options
    some (r.1, { io with options := r.2 }, ms)
  | _ => none

def tlsioMbedtlsSetoption (env : Surroundings) (optionName : String) (value : Option Value) (io : TlsIo) (ms : Mallocs) :
    Option (Nat × TlsIo × Mallocs) :=
  if optionName = optionTrustedCert then setMaterial env .trustedCert value io ms
  else if optionName = optionX509EccCert then setMaterial env (.own .x509EccCert) value io ms
  else if optionName = optionX509EccKey then setMaterial env (.own .x509EccKey) value io ms
  else do
    let (result, socketIo, ms) ← xioSetoption env optionName value io.socketIo ms
    some (result, { io with socketIo := socketIo }, ms)

def tlsioMbedtlsCloneOption (env : Surroundings) (name : String) (value : Value) (ms : Mallocs) :
    Option (Option Value × Mallocs) :=
  if name = optionUnderlyingIoOptions then some (some value, ms)
  else if name = optionTrustedCert then do
    let s ← readText env value
    match mallocAndStrcpy s ms with
    | (.nullWrite, _) => none
    | (.copied s, ms) => some (some (.text s), ms)
  else some (none, ms)

def tlsioMbedtlsRetrieveoptions (env : Surroundings) (io : TlsIo) (ms : Mallocs) : Option (Option Storage × Mallocs) :=
  match optionHandlerCreate ms with
  | (none, ms) => some (none, ms)
  | (some result, ms) => do
    let (underlying, ms) ← xioRetrieveoptions env io.socketIo ms
    match underlying with
    | none => some (none, ms)
    | some underlying => do
      let (r, result, ms) ← optionHandlerAddOption (tlsioMbedtlsCloneOption env) result optionUnderlyingIoOptions
        (some (.handler .xio underlying)) ms
      if r ≠ .ok then some (none, ms)
      else match io.options.trustedCertificates.pointer with
        | none => some (some result, ms)
        | some p => do
          let (r, result, ms) ← optionHandlerAddOption (tlsioMbedtlsCloneOption env) result optionTrustedCert
            (some (.pointer p)) ms
          some (if r = .ok then some result else none, ms)

/-! ## Setting, saving and feeding -/

/-- The options of the TLS io, and the MAC address of its socket. -/
inductive Setting where
  | trustedCert (m : Material)
  | clientCert (m : Material)
  | privateKey (m : Material)
  | macAddress (s : CString)

def Setting.optionName : Setting → String
  | .trustedCert _ => optionTrustedCert
  | .clientCert _ => optionX509EccCert
  | .privateKey _ => optionX509EccKey
  | .macAddress _ => optionNetIntMacAddress

def Setting.value : Setting → Value
  | .trustedCert m => .material m
  | .clientCert m => .material m
  | .privateKey m => .material m
  | .macAddress s => .text s

def setAll (env : Surroundings) : List Setting → TlsIo → Mallocs → Option (TlsIo × Mallocs)
  | [], io, ms => some (io, ms)
  | s :: settings, io, ms => do
    let (result, io, ms) ← tlsioMbedtlsSetoption env s.optionName (some s.value) io ms
    if result = 0 then setAll env settings io ms else none

/-- The same bytes behind both pointers, or two that are NULL, and the same size. -/
def SameMaterial (env : Surroundings) (m m' : Material) : Prop :=
  m'.pointer.map env.memory = m.pointer.map env.memory ∧ m'.size = m.size

structure SameOptions (env : Surroundings) (io io' : TlsIo) : Prop where
  trustedCertificates : SameMaterial env io.options.trustedCertificates io'.options.trustedCertificates
  clientCertificates : SameMaterial env io.options.clientCertificates io'.options.clientCertificates
  clientPrivateKey : SameMaterial env io.options.clientPrivateKey io'.options.clientPrivateKey
  targetMacAddress : io'.socketIo.targetMacAddress = io.socketIo.targetMacAddress

/-- Every option is fed to a new io, which then has the options of the first. -/
def OptionsSurvive (env : Surroundings) (io : TlsIo) (ms : Mallocs) : Prop :=
  ∃ storage ms1 io' ms2, tlsioMbedtlsRetrieveoptions env io ms = some (some storage, ms1) ∧
    optionHandlerFeedOptions (tlsioMbedtlsSetoption env) storage tlsioMbedtlsCreate ms1 = some (.ok, io', ms2) ∧
    SameOptions env io io'

section Specs

variable {env : Surroundings} {ms ms' : Mallocs}

theorem optionHandlerCreate_succeed (hm : Succeed ms) :
    ∃ ms', optionHandlerCreate ms = (some [], ms') ∧ Succeed ms' := by
  obtain ⟨_, ms1, h1, -, hs1⟩ := malloc_succeed hm 16
  obtain ⟨_, ms2, h2, -, hs2⟩ := malloc_succeed hs1 12
  exact ⟨ms2, by simp only [optionHandlerCreate, h1, h2], hs2⟩

theorem optionHandlerCreate_some {storage : Storage} (h : optionHandlerCreate ms = (some storage, ms')) : storage = [] := by
  unfold optionHandlerCreate at h
  split at h
  · cases h
  · split at h
    · cases h
    · cases h
      rfl

/-- An option that could be cloned is saved behind the others. -/
theorem optionHandlerAddOption_succeed {cloneOption : String → Value → Mallocs → Option (Option Value × Mallocs)}
    (hm : Succeed ms) {name : String} {value : Value} {copy : Value}
    (hc : ∀ ms, Succeed ms → ∃ ms', cloneOption name value ms = some (some copy, ms') ∧ Succeed ms')
    (storage : Storage) :
    ∃ ms', optionHandlerAddOption cloneOption storage name (some value) ms = some (.ok, storage ++ [(name, copy)], ms') ∧
      Succeed ms' := by
  obtain ⟨_, ms1, h1, -, hs1⟩ := malloc_succeed hm (name.length + 1)
  obtain ⟨ms2, h2, hs2⟩ := hc ms1 hs1
  obtain ⟨_, ms3, h3, -, hs3⟩ := malloc_succeed hs2 (8 * (storage.length + 1))
  exact ⟨ms3, by simp only [optionHandlerAddOption, h1, h2, h3, Option.bind_eq_bind, Option.bind_some], hs3⟩

theorem optionHandlerAddOption_some {cloneOption : String → Value → Mallocs → Option (Option Value × Mallocs)}
    {storage storage' : Storage} {name : String} {value : Option Value} {r : OptionHandlerResult}
    (h : optionHandlerAddOption cloneOption storage name value ms = some (r, storage', ms')) :
    r ≠ .ok ∨ ∃ copy, storage' = storage ++ [(name, copy)] := by
  unfold optionHandlerAddOption at h
  split at h
  · cases h
    exact Or.inl nofun
  · split at h
    · cases h
    · obtain ⟨⟨copy, ms1⟩, -, h⟩ := Option.bind_eq_some_iff.mp h
      cases copy with
      | none =>
        cases h
        exact Or.inl nofun
      | some copy =>
        simp only at h
        split at h
        · cases h
          exact Or.inl nofun
        · cases h
          exact Or.inr ⟨copy, rfl⟩

/-- The handler of a TLS io holds that of its xio, and behind it at most the trusted certificate. -/
theorem retrieveoptions_saved {io : TlsIo} {storage : Storage}
    (h : tlsioMbedtlsRetrieveoptions env io ms = some (some storage, ms')) :
    ∃ value rest, storage = (optionUnderlyingIoOptions, value) :: rest ∧ ∀ o ∈ rest, o.1 = optionTrustedCert := by
  unfold tlsioMbedtlsRetrieveoptions at h
  split at h
  · cases h
  · rename_i result ms1 hr
    rw [optionHandlerCreate_some hr] at h
    obtain ⟨⟨underlying, ms2⟩, -, h⟩ := Option.bind_eq_some_iff.mp h
    cases underlying with
    | none => cases h
    | some underlying =>
      obtain ⟨⟨r, result, ms3⟩, ha, h⟩ := Option.bind_eq_some_iff.mp h
      simp only at h
      split at h
      · cases h
      · rename_i hok
        obtain ⟨value, rfl⟩ := (optionHandlerAddOption_some ha).resolve_left hok
        split at h
        · cases h
          exact ⟨value, [], rfl, nofun⟩
        · obtain ⟨⟨r', result', ms4⟩, ha', h⟩ := Option.bind_eq_some_iff.mp h
          simp only at h
          split at h
          · rename_i hok'
            cases h
            obtain ⟨value', rfl⟩ := (optionHandlerAddOption_some ha').resolve_left (not_not_intro hok')
            refine ⟨value, [(optionTrustedCert, value')], rfl, ?_⟩
            intro o ho
            rw [List.mem_singleton.mp ho]
          · cases h

theorem xioSetoption_passed {optionName : String} (h : optionName ≠ concreteOptions) (value : Option Value) (io : SocketIo)
    (ms : Mallocs) : xioSetoption env optionName value io ms = socketioSetoption env optionName value io ms := by
  unfold xioSetoption
  rw [if_neg h]

/-- The name goes down to the socket, which does not know it. -/
theorem underlying_refused (value : Value) (io : TlsIo) (ms : Mallocs) :
    tlsioMbedtlsSetoption env optionUnderlyingIoOptions (some value) io ms = some (failure, io, ms) := by
  rw [tlsioMbedtlsSetoption, if_neg (by decide), if_neg (by decide), if_neg (by decide), xioSetoption_passed (by decide),
    socketioSetoption, if_neg (by decide), if_neg (by decide)]
  rfl

theorem feed_stops {io : TlsIo} {storage : Storage}
    (h : tlsioMbedtlsRetrieveoptions env io ms = some (some storage, ms')) (io' : TlsIo) (ms1 : Mallocs) :
    optionHandlerFeedOptions (tlsioMbedtlsSetoption env) storage io' ms1 = some (.error, io', ms1) := by
  obtain ⟨value, rest, rfl, -⟩ := retrieveoptions_saved h
  rw [optionHandlerFeedOptions, underlying_refused]
  rfl

/-- The client certificate and its key are in no handler. -/
theorem own_unsaved {io : TlsIo} {storage : Storage}
    (h : tlsioMbedtlsRetrieveoptions env io ms = some (some storage, ms')) {o : String × Value} (ho : o ∈ storage) :
    o.1 ≠ optionX509EccCert ∧ o.1 ≠ optionX509EccKey := by
  obtain ⟨value, rest, rfl, hrest⟩ := retrieveoptions_saved h
  have hname : o.1 = optionUnderlyingIoOptions ∨ o.1 = optionTrustedCert := by
    cases ho with
    | head => exact Or.inl rfl
    | tail _ ho => exact Or.inr (hrest o ho)
  cases hname with
  | inl hname =>
    rw [hname]
    decide
  | inr hname =>
    rw [hname]
    decide

/-- The trusted certificate is saved as a string, which `tlsio_mbedtls_setoption` cannot read. -/
theorem savedCert_unreadable {p : Nat} {copy : Value} {ms1 : Mallocs}
    (h : tlsioMbedtlsCloneOption env optionTrustedCert (.pointer p) ms = some (some copy, ms')) (io : TlsIo) :
    tlsioMbedtlsSetoption env optionTrustedCert (some copy) io ms1 = none := by
  rw [tlsioMbedtlsCloneOption, if_neg (by decide), if_pos rfl] at h
  obtain ⟨s, -, h⟩ := Option.bind_eq_some_iff.mp h
  split at h
  · cases h
  · cases h
    rw [tlsioMbedtlsSetoption, if_pos rfl]
    rfl

def SocketIo.saved (io : SocketIo) : Storage :=
  io.targetMacAddress.toList.map fun mac => (optionNetIntMacAddress, .text mac)

theorem socketioRetrieveoptions_succeed (env : Surroundings) (hm : Succeed ms) (io : SocketIo) :
    ∃ ms', socketioRetrieveoptions env io ms = some (some io.saved, ms') ∧ Succeed ms' := by
  obtain ⟨ms1, h1, hs1⟩ := optionHandlerCreate_succeed hm
  cases hmac : io.targetMacAddress with
  | none =>
    refine ⟨ms1, ?_, hs1⟩
    simp only [socketioRetrieveoptions, h1, hmac, SocketIo.saved, Option.toList_none, List.map_nil]
  | some mac =>
    have hclone : ∀ ms, Succeed ms → ∃ ms', socketioCloneOption env optionNetIntMacAddress (.text mac) ms =
        some (some (.text mac), ms') ∧ Succeed ms' := by
      intro ms hs
      obtain ⟨_, ms', h, -, hs'⟩ := malloc_succeed hs (mac.strlen + 1)
      exact ⟨ms', by simp only [socketioCloneOption, if_true, readText, Option.bind_eq_bind, Option.bind_some, h], hs'⟩
    obtain ⟨ms2, h2, hs2⟩ := optionHandlerAddOption_succeed hs1 hclone []
    refine ⟨ms2, ?_, hs2⟩
    simp only [socketioRetrieveoptions, h1, hmac, h2, Option.bind_eq_bind, Option.bind_some, if_true, SocketIo.saved,
      Option.toList_some, List.map_cons, List.map_nil, List.nil_append]

theorem xioRetrieveoptions_succeed (env : Surroundings) (hm : Succeed ms) (io : SocketIo) :
    ∃ ms', xioRetrieveoptions env io ms = some (some [(concreteOptions, .handler .socketio io.saved)], ms') ∧
      Succeed ms' := by
  obtain ⟨ms1, h1, hs1⟩ := optionHandlerCreate_succeed hm
  obtain ⟨ms2, h2, hs2⟩ := socketioRetrieveoptions_succeed env hs1 io
  have hclone : ∀ ms, Succeed ms → ∃ ms', xioCloneOption concreteOptions (.handler .socketio io.saved) ms =
      some (some (.handler .socketio io.saved), ms') ∧ Succeed ms' := fun ms hs => ⟨ms, rfl, hs⟩
  obtain ⟨ms3, h3, hs3⟩ := optionHandlerAddOption_succeed hs2 hclone []
  refine ⟨ms3, ?_, hs3⟩
  simp only [xioRetrieveoptions, h1, h2, h3, Option.bind_eq_bind, Option.bind_some, if_true, List.nil_append]

/-- With memory, a TLS io whose trusted certificate is a string gives a handler. -/
theorem retrieveoptions_succeed (hm : Succeed ms) {io : TlsIo}
    (ht : ∀ p, io.options.trustedCertificates.pointer = some p → 0 ∈ env.memory p) :
    ∃ storage ms', tlsioMbedtlsRetrieveoptions env io ms = some (some storage, ms') := by
  obtain ⟨ms1, h1, hs1⟩ := optionHandlerCreate_succeed hm
  obtain ⟨ms2, h2, hs2⟩ := xioRetrieveoptions_succeed env hs1 io.socketIo
  have hclone : ∀ v ms, Succeed ms → ∃ ms', tlsioMbedtlsCloneOption env optionUnderlyingIoOptions v ms =
      some (some v, ms') ∧ Succeed ms' := fun v ms hs => ⟨ms, rfl, hs⟩
  let underlying : Value := .handler .xio [(concreteOptions, .handler .socketio io.socketIo.saved)]
  obtain ⟨ms3, h3, hs3⟩ := optionHandlerAddOption_succeed hs2 (hclone underlying) []
  cases hp : io.options.trustedCertificates.pointer with
  | none =>
    refine ⟨[(optionUnderlyingIoOptions, underlying)], ms3, ?_⟩
    simp only [tlsioMbedtlsRetrieveoptions, h1, h2, Option.bind_eq_bind, Option.bind_some]
    rw [h3]
    simp only [hp, Option.bind_some]
    rfl
  | some p =>
    have hcert : ∀ ms, Succeed ms → ∃ ms', tlsioMbedtlsCloneOption env optionTrustedCert (.pointer p) ms =
        some (some (.text (CString.ofBlock (env.memory p))), ms') ∧ Succeed ms' := by
      intro ms hs
      obtain ⟨ms', h, hs'⟩ := mallocAndStrcpy_succeed hs (CString.ofBlock (env.memory p))
      refine ⟨ms', ?_, hs'⟩
      rw [tlsioMbedtlsCloneOption, if_neg (by decide), if_pos rfl]
      simp only [readText, if_pos (ht p hp), h, Option.bind_eq_bind, Option.bind_some]
    obtain ⟨ms4, h4, -⟩ := optionHandlerAddOption_succeed hs3 hcert [(optionUnderlyingIoOptions, underlying)]
    refine ⟨[(optionUnderlyingIoOptions, underlying)] ++ [(optionTrustedCert, .text (CString.ofBlock (env.memory p)))],
      ms4, ?_⟩
    simp only [tlsioMbedtlsRetrieveoptions, h1, h2, Option.bind_eq_bind, Option.bind_some]
    rw [h3]
    simp only [hp, Option.bind_some, List.nil_append]
    rw [h4]
    rfl

/-! ## What survives -/

theorem socketioSetoption_mac (env : Surroundings) (hm : Succeed ms) (s : CString) (hs : s.strlen ≠ 0) (io : SocketIo) :
    ∃ ms', socketioSetoption env optionNetIntMacAddress (some (.text s)) io ms = some (0, ⟨some (strtoup s)⟩, ms') ∧
      Succeed ms' := by
  obtain ⟨_, ms1, h1, -, hs1⟩ := malloc_succeed hm (s.strlen + 1)
  refine ⟨ms1, ?_, hs1⟩
  rw [socketioSetoption, if_neg (by decide), if_pos rfl]
  simp only [readText, Option.bind_eq_bind, Option.bind_some, if_neg hs, h1]

/-- One layer down, a MAC address that was set is saved, and restored in a new socket. -/
theorem underlying_restored (hm : Succeed ms) (s : CString) (hs : s.strlen ≠ 0) :
    ∃ io ms1 storage ms2 ms3, xioSetoption env optionNetIntMacAddress (some (.text s)) ⟨none⟩ ms = some (0, io, ms1) ∧
      xioRetrieveoptions env io ms1 = some (some storage, ms2) ∧
      optionHandlerFeedOptions (xioSetoption env) storage ⟨none⟩ ms2 = some (.ok, io, ms3) := by
  obtain ⟨ms1, h1, hs1⟩ := socketioSetoption_mac env hm s hs ⟨none⟩
  obtain ⟨ms2, h2, hs2⟩ := xioRetrieveoptions_succeed env hs1 ⟨some (strtoup s)⟩
  have hlen : (strtoup s).strlen ≠ 0 := by
    rw [CString.strlen, strtoup, List.length_map]
    exact hs
  obtain ⟨ms3, h3, -⟩ := socketioSetoption_mac env hs2 (strtoup s) hlen ⟨none⟩
  rw [strtoup_strtoup] at h3
  refine ⟨⟨some (strtoup s)⟩, ms1, _, ms2, ms3, ?_, h2, ?_⟩
  · rw [xioSetoption_passed (by decide), h1]
  · simp only [optionHandlerFeedOptions, xioSetoption, if_true, SocketIo.saved, Option.toList_some, List.map_cons,
      List.map_nil, h3, Option.bind_eq_bind, Option.bind_some]
    rfl

theorem socketioSetoption_text {name : String} {s : CString} {io io' : SocketIo} {result : Nat} (hm : Succeed ms)
    (h : socketioSetoption env name (some (.text s)) io ms = some (result, io', ms')) : Succeed ms' := by
  unfold socketioSetoption at h
  simp only [readText, Option.bind_eq_bind, Option.bind_some] at h
  split at h
  · cases h
    exact hm
  · split at h
    · split at h
      · cases h
        exact hm
      · obtain ⟨block, ms1, h1, -, hs1⟩ := malloc_succeed hm (s.strlen + 1)
        rw [h1] at h
        cases h
        exact hs1
    · cases h
      exact hm

theorem setMaterial_mallocs {name : OptionName} {value : Option Value} {io io' : TlsIo} {result : Nat}
    (h : setMaterial env name value io ms = some (result, io', ms')) : ms' = ms := by
  unfold setMaterial at h
  split at h
  · cases h
    rfl
  · cases h

theorem setting_succeed (s : Setting) {io io' : TlsIo} {result : Nat} (hm : Succeed ms)
    (h : tlsioMbedtlsSetoption env s.optionName (some s.value) io ms = some (result, io', ms')) : Succeed ms' := by
  cases s with
  | trustedCert m =>
    rw [Setting.optionName, tlsioMbedtlsSetoption, if_pos rfl] at h
    exact setMaterial_mallocs h ▸ hm
  | clientCert m =>
    rw [Setting.optionName, tlsioMbedtlsSetoption, if_neg (by decide), if_pos rfl] at h
    exact setMaterial_mallocs h ▸ hm
  | privateKey m =>
    rw [Setting.optionName, tlsioMbedtlsSetoption, if_neg (by decide), if_neg (by decide), if_pos rfl] at h
    exact setMaterial_mallocs h ▸ hm
  | macAddress s =>
    rw [Setting.optionName, tlsioMbedtlsSetoption, if_neg (by decide), if_neg (by decide), if_neg (by decide)] at h
    obtain ⟨⟨r, socketIo, ms1⟩, h1, h⟩ := Option.bind_eq_some_iff.mp h
    cases h
    rw [xioSetoption_passed (by decide)] at h1
    exact socketioSetoption_text hm h1

theorem setAll_succeed {settings : List Setting} {io io' : TlsIo} (hm : Succeed ms)
    (h : setAll env settings io ms = some (io', ms')) : Succeed ms' := by
  induction settings generalizing io ms with
  | nil =>
    cases h
    exact hm
  | cons s settings ih =>
    obtain ⟨⟨result, io1, ms1⟩, h1, h⟩ := Option.bind_eq_some_iff.mp h
    simp only at h
    split at h
    · exact ih (setting_succeed s hm h1) h
    · cases h

/-- Of the options of a TLS io none survives: whatever was set, the handler that is saved cannot be fed. -/
theorem options_lost (env : Surroundings) (settings : List Setting) (ms ms1 : Mallocs) (io : TlsIo) (hm : Succeed ms)
    (hset : setAll env settings tlsioMbedtlsCreate ms = some (io, ms1)) :
    ¬ OptionsSurvive env io ms1 ∧
      ((∀ p, io.options.trustedCertificates.pointer = some p → 0 ∈ env.memory p) →
        ∃ storage ms2, tlsioMbedtlsRetrieveoptions env io ms1 = some (some storage, ms2) ∧
          optionHandlerFeedOptions (tlsioMbedtlsSetoption env) storage tlsioMbedtlsCreate ms2 =
            some (.error, tlsioMbedtlsCreate, ms2)) := by
  constructor
  · intro h
    obtain ⟨storage, ms2, io', ms3, hretrieved, hfed, -⟩ := h
    rw [feed_stops hretrieved] at hfed
    cases hfed
  · intro ht
    obtain ⟨storage, ms2, hretrieved⟩ := retrieveoptions_succeed (setAll_succeed hm hset) ht
    exact ⟨storage, ms2, hretrieved, feed_stops hretrieved tlsioMbedtlsCreate ms2⟩

theorem null_refused (_ : TlsOptions) (_ : OptionName) (m : Material) (h : m.pointer = none) :
    m.pointer.isSome = false :=
  Option.isSome_eq_false_iff.mpr (Option.isNone_iff_eq_none.mpr h)

def goodMaterial : Surroundings where
  memory p := if p = 1 then [67, 0] else [75, 0]
  parses _ _ m := m.pointer.isSome
  refuses := null_refused
  setsockopt _ _ := 0

theorem trustedCert_lost : ¬ OptionsSurvive goodMaterial ⟨⟨⟨some 1, 2⟩, ⟨none, 0⟩, ⟨none, 0⟩, [.caChain]⟩, ⟨none⟩⟩ [] :=
  (options_lost goodMaterial [.trustedCert ⟨some 1, 2⟩] [] [] _ succeed_nil rfl).1

/-- A TLS io with a trusted certificate, and nothing else. -/
theorem feed_refused : ∃ io, setAll goodMaterial [.trustedCert ⟨some 1, 2⟩] tlsioMbedtlsCreate [] = some (io, []) ∧
    ¬ OptionsSurvive goodMaterial io [] := by
  refine ⟨_, rfl, ?_⟩
  intro h
  obtain ⟨storage, ms2, io', ms3, hretrieved, hfed, -⟩ := h
  rw [feed_stops hretrieved] at hfed
  cases hfed

end Specs

end UMqtt.Io.OptionHandlers
