/-
  UMqtt.Comm.Handles — what a communicator owns: the handles of its client and its transport,
  with and without TLS, under failures of malloc, `mqtt_client_init` and `xio_create`.

  Three objects are created and released, and a ledger keeps account. Two calls of `xio_create`
  go wrong when they fail: without `security`, `MQTT_Comm_Create` frees the client and returns the
  communicator all the same; and MQTT_ERROR stores the NULL and goes on to MQTT_CONNECTING, whose
  loop then never ends (`connectLoop_null`). An attempt to connect, and a `mqtt_client_dowork`,
  leave behind the state that the callbacks set last, if they set one. A communicator that has
  been freed is not called.

  Proved (`handles_iff`): a run, the creation included, is as it should be exactly when neither
  call of `xio_create` fails in it. In such a run every state owns just what it should
  (`visited_owns`). `create_refines` and `retry_never_ends` say the same of the communicator over
  its client and its sockets.
-/

import UMqtt.Lib.Ledger
import UMqtt.Comm.Communicator

namespace UMqtt.Comm.Handles

open UMqtt.Lib UMqtt.Crt UMqtt.Client

/-! ## Objects -/

inductive Object where
  | communicator
  | client
  | transport (n : Nat)
  deriving DecidableEq, Repr

/-- The fields of `MQTT_COMMUNICATOR` that say what it owns, and in which state it is. -/
structure Communicator where
  security : Bool
  mqttHandle : Option Object
  xioHandle : Option Object
  state : Status
  deriving DecidableEq, Repr

/-- `comm` is none when no communicator was returned, or it is freed. -/
structure Owner where
  comm : Option Communicator
  ledger : List (Ledger.Entry Object)
  transports : Nat
  deriving DecidableEq, Repr

def nothing : Owner := ⟨none, [], 0⟩

def create (x : Object) (w : Owner) : Owner := { w with ledger := w.ledger ++ [.created x] }

def release (x : Object) (w : Owner) : Owner := { w with ledger := w.ledger ++ [.released x] }

def xioCreate (succeeds : Bool) (w : Owner) : Option Object × Owner :=
  if succeeds then (some (.transport w.transports), { create (.transport w.transports) w with transports := w.transports + 1 })
  else (none, w)

/-- `xio_close` and `xio_destroy`. -/
def xioDestroy (h : Option Object) (w : Owner) : Owner :=
  match h with
  | none => w
  | some x => release x w

def mqttClientDeinit (h : Option Object) (w : Owner) : Owner :=
  match h with
  | none => w
  | some x => release x w

/-! ## MQTT_Comm_Create -/

/-- The arguments that are tested; of a pointer whether it is not NULL. -/
structure Arguments where
  host : Bool
  port : Nat
  security : Bool
  rootCa : Bool
  clientCrt : Bool
  privateKey : Bool
  deriving DecidableEq, Repr

structure Grants where
  malloc : Bool
  clientInit : Bool
  xioCreate : Bool
  deriving DecidableEq, Repr

def Arguments.Accepted (p : Arguments) : Prop :=
  p.host = true ∧ p.port ≠ 0 ∧ (p.security = true → p.rootCa = true ∧ p.clientCrt = true ∧ p.privateKey = true)

instance (p : Arguments) : Decidable p.Accepted := by unfold Arguments.Accepted; infer_instance

def mqttCommCreate (p : Arguments) (g : Grants) : Owner :=
  if ¬ p.Accepted then nothing
  else if g.malloc = false then nothing
  else
    let w := create .communicator nothing
    if g.clientInit = false then release .communicator w
    else
      let (xioHandle, w) := xioCreate g.xioCreate (create .client w)
      let comm : Communicator := ⟨p.security, some .client, xioHandle, .disconnected⟩
      if p.security then
        if xioHandle = none then release .communicator (mqttClientDeinit comm.mqttHandle w)
        else { w with comm := some comm }
      else { (if xioHandle = none then mqttClientDeinit comm.mqttHandle w else w) with comm := some comm }

/-! ## MQTT_Comm_Process -/

structure Attempt where
  succeeds : Bool
  sets : Option Status
  deriving DecidableEq, Repr

/-- What the surroundings do in one call. -/
structure Turn where
  dowork : Option Status
  attempts : List Attempt
  xioCreate : Bool
  deriving DecidableEq, Repr

def Communicator.callbacks (sets : Option Status) (c : Communicator) : Communicator := { c with state := sets.getD c.state }

/-- `mqtt_client_connect` refuses a NULL transport before anything else. -/
def mqttClientConnect (a : Attempt) (c : Communicator) : Bool × Communicator :=
  match c.xioHandle with
  | none => (false, c)
  | some _ => (a.succeeds, c.callbacks a.sets)

/-- The loop over these attempts; whether one of them has ended it. -/
def connectLoop : List Attempt → Communicator → Bool × Communicator
  | [], c => (false, c)
  | a :: attempts, c =>
    let r := mqttClientConnect a c
    if r.1 then r else connectLoop attempts r.2

/-- One call, and whether it returns. -/
def mqttCommProcess (t : Turn) (c : Communicator) (w : Owner) : Bool × Owner :=
  match c.state with
  | .connected => (true, { w with comm := some (c.callbacks t.dowork) })
  | .error =>
    let (xioHandle, w) := xioCreate t.xioCreate (xioDestroy c.xioHandle w)
    (true, { w with comm := some { c with xioHandle := xioHandle, state := .connecting } })
  | .connecting =>
    let r := connectLoop t.attempts c
    (r.1, { w with comm := some (if r.1 ∧ r.2.state = .connecting then { r.2 with state := .connected } else r.2) })
  | .disconnected =>
    let w := mqttClientDeinit c.mqttHandle (xioDestroy c.xioHandle w)
    (true, { release .communicator w with comm := none })

/-! ## Runs -/

inductive Call where
  | startConnection
  | process (t : Turn)
  deriving DecidableEq, Repr

def Call.run (call : Call) (c : Communicator) (w : Owner) : Bool × Owner :=
  match call with
  | .startConnection => (true, { w with comm := some { c with state := .connecting } })
  | .process t => mqttCommProcess t c w

/-- The states of a run, up to the call that does not return. -/
def visited : List Call → Owner → List Owner
  | [], w => [w]
  | call :: calls, w =>
    match w.comm with
    | none => [w]
    | some c =>
      let r := call.run c w
      w :: if r.1 then visited calls r.2 else [r.2]

/-- NULL with everything released once, or a communicator with two live handles. -/
structure CreatedWell (w : Owner) : Prop where
  null : w.comm = none → Ledger.Settled w.ledger
  live : ∀ c, w.comm = some c →
    (∃ x, c.mqttHandle = some x ∧ Ledger.Holds w.ledger x) ∧ ∃ x, c.xioHandle = some x ∧ Ledger.Holds w.ledger x

/-- While it is connecting or connected there is a transport, and the loop can succeed. -/
structure Equipped (w : Owner) : Prop where
  transport : ∀ c, w.comm = some c → c.state = .connecting ∨ c.state = .connected → c.xioHandle ≠ none
  retry : ∀ c, w.comm = some c → c.state = .connecting → ∃ attempts, (connectLoop attempts c).1 = true

/-- The call gets its transport, if it makes one. -/
def Call.granted (call : Call) (c : Communicator) : Prop :=
  match call with
  | .startConnection => True
  | .process t => c.state = .error → t.xioCreate = true

/-- Every MQTT_ERROR of the run gets its transport. -/
def Recreated : List Call → Owner → Prop
  | [], _ => True
  | call :: calls, w => ∀ c, w.comm = some c → call.granted c ∧ ((call.run c w).1 = true → Recreated calls (call.run c w).2)

/-- There is no transport, and the client is freed, but the communicator is returned. -/
def LeftOver (p : Arguments) (g : Grants) : Prop :=
  p.Accepted ∧ g.malloc = true ∧ g.clientInit = true ∧ p.security = false ∧ g.xioCreate = false

/-! ## One call -/

variable {w : Owner} {c : Communicator}

/-- A communicator owns its client, its last transport and itself, and nothing else is left. -/
def Owns (w : Owner) : Prop :=
  (w.comm = none → Ledger.held w.ledger [] = some []) ∧
    ∀ c, w.comm = some c → ∃ n < w.transports, c.mqttHandle = some .client ∧ c.xioHandle = some (.transport n) ∧
      Ledger.held w.ledger [] = some [.transport n, .client, .communicator]

theorem Owns.createdWell (h : Owns w) : CreatedWell w := by
  refine ⟨h.1, fun c hc => ?_⟩
  obtain ⟨n, -, hm, hx, hheld⟩ := h.2 c hc
  exact ⟨⟨_, hm, _, hheld, by simp⟩, _, hx, _, hheld, by simp⟩

theorem Owns.equipped (h : Owns w) : Equipped w := by
  refine ⟨fun c hc _ => ?_, fun c hc _ => ?_⟩
  · obtain ⟨n, -, -, hx, -⟩ := h.2 c hc
    simp [hx]
  · obtain ⟨n, -, -, hx, -⟩ := h.2 c hc
    exact ⟨[⟨true, none⟩], by simp [connectLoop, mqttClientConnect, hx]⟩

/-- Without a transport the loop never ends. -/
theorem connectLoop_null (h : c.xioHandle = none) (attempts : List Attempt) : connectLoop attempts c = (false, c) := by
  induction attempts with
  | nil => rfl
  | cons a attempts ih => simpa [connectLoop, mqttClientConnect, h] using ih

/-- The loop keeps the handles. -/
theorem connectLoop_handles (attempts : List Attempt) (c : Communicator) :
    (connectLoop attempts c).2.mqttHandle = c.mqttHandle ∧ (connectLoop attempts c).2.xioHandle = c.xioHandle := by
  induction attempts generalizing c with
  | nil => exact ⟨rfl, rfl⟩
  | cons a attempts ih =>
    have hone : (mqttClientConnect a c).2.mqttHandle = c.mqttHandle ∧ (mqttClientConnect a c).2.xioHandle = c.xioHandle := by
      unfold mqttClientConnect
      split
      · exact ⟨rfl, rfl⟩
      · exact ⟨rfl, rfl⟩
    simp only [connectLoop]
    split
    · exact hone
    · obtain ⟨hm, hx⟩ := ih (mqttClientConnect a c).2
      exact ⟨hm.trans hone.1, hx.trans hone.2⟩

/-- Another state of the same handles. -/
theorem Owns.keep (h : Owns w) (hc : w.comm = some c) {d : Communicator} (hm : d.mqttHandle = c.mqttHandle)
    (hx : d.xioHandle = c.xioHandle) : Owns { w with comm := some d } := by
  refine ⟨fun hn => absurd hn (by simp), fun e he => ?_⟩
  obtain ⟨n, hn, hm', hx', hheld⟩ := h.2 c hc
  cases he
  exact ⟨n, hn, hm.trans hm', hx.trans hx', hheld⟩

/-- A call that gets its transport. -/
theorem Owns.run (h : Owns w) (hc : w.comm = some c) {call : Call} (hg : call.granted c) : Owns (call.run c w).2 := by
  obtain ⟨n, hn, hm, hx, hheld⟩ := h.2 c hc
  cases call with
  | startConnection => exact h.keep hc rfl rfl
  | process t =>
    simp only [Call.run, mqttCommProcess]
    cases hs : c.state with
    | connected => exact h.keep hc rfl rfl
    | connecting =>
      obtain ⟨hm', hx'⟩ := connectLoop_handles t.attempts c
      simp only
      split
      · exact h.keep hc hm' hx'
      · exact h.keep hc hm' hx'
    | error =>
      have hgrant : t.xioCreate = true := hg hs
      have hgone := Ledger.held_released hheld List.mem_cons_self
      have hfresh : Object.transport w.transports ∉ [Object.client, Object.communicator] := by simp
      simp only [hx, xioDestroy, xioCreate, hgrant, if_true, release, create]
      refine ⟨fun he => absurd he (by simp), fun e he => ?_⟩
      cases he
      exact ⟨w.transports, Nat.lt_succ_self _, hm, rfl, Ledger.held_created (by simpa using hgone) hfresh⟩
    | disconnected =>
      simp only [hx, hm, xioDestroy, mqttClientDeinit, release]
      refine ⟨fun _ => ?_, fun e he => absurd he (by simp)⟩
      have h1 := Ledger.held_released hheld List.mem_cons_self
      rw [List.erase_cons_head] at h1
      have h2 := Ledger.held_released h1 List.mem_cons_self
      rw [List.erase_cons_head] at h2
      have h3 := Ledger.held_released h2 List.mem_cons_self
      rwa [List.erase_cons_head] at h3

/-- The error branch without a transport. -/
theorem unequipped_run {call : Call} (hg : ¬ call.granted c) : ¬ Equipped (call.run c w).2 := by
  cases call with
  | startConnection => exact absurd trivial hg
  | process t =>
    simp only [Call.granted, Classical.not_imp] at hg
    obtain ⟨hs, ht⟩ := hg
    intro he
    refine he.transport { c with xioHandle := none, state := .connecting } ?_ (Or.inl rfl) rfl
    simp only [Call.run, mqttCommProcess, hs, xioCreate, if_neg ht]

/-! ## Creation -/

theorem create_granted {p : Arguments} (hp : p.Accepted) : mqttCommCreate p ⟨true, true, true⟩ =
    ⟨some ⟨p.security, some .client, some (.transport 0), .disconnected⟩,
      [.created .communicator, .created .client, .created (.transport 0)], 1⟩ := by
  cases hs : p.security with
  | true => simp [mqttCommCreate, hp, hs, nothing, create, xioCreate]
  | false => simp [mqttCommCreate, hp, hs, nothing, create, xioCreate]

theorem owns_nothing (hn : w.comm = none) (h : Ledger.held w.ledger [] = some []) : Owns w :=
  ⟨fun _ => h, fun c hc => absurd (hn.symm.trans hc) (by simp)⟩

theorem create_owns {p : Arguments} {g : Grants} (h : ¬ LeftOver p g) : Owns (mqttCommCreate p g) := by
  by_cases hp : p.Accepted
  · obtain ⟨m, i, x⟩ := g
    cases m with
    | false => simpa [mqttCommCreate, hp] using owns_nothing (w := nothing) rfl rfl
    | true =>
      cases i with
      | false =>
        simp only [mqttCommCreate, hp, not_true_eq_false, if_false, Bool.true_eq_false, if_true]
        exact owns_nothing rfl rfl
      | true =>
        cases x with
        | true =>
          rw [create_granted hp]
          refine ⟨fun hn => absurd hn (by simp), fun c hc => ?_⟩
          cases hc
          exact ⟨0, Nat.one_pos, rfl, rfl, rfl⟩
        | false =>
          have hs : p.security = true := by
            by_contra hs
            exact h ⟨hp, rfl, rfl, by simpa using hs, rfl⟩
          simp only [mqttCommCreate, hp, hs, xioCreate, not_true_eq_false, if_false, Bool.true_eq_false, Bool.false_eq_true, if_true]
          exact owns_nothing rfl rfl
  · simpa [mqttCommCreate, hp] using owns_nothing (w := nothing) rfl rfl

/-- The communicator that is returned without a transport. -/
theorem leftOver_create {p : Arguments} {g : Grants} (h : LeftOver p g) :
    mqttCommCreate p g = ⟨some ⟨false, some .client, none, .disconnected⟩,
      [.created .communicator, .created .client, .released .client], 0⟩ := by
  obtain ⟨hp, hm, hi, hs, hx⟩ := h
  simp [mqttCommCreate, hp, hm, hi, hs, hx, nothing, create, mqttClientDeinit, release, xioCreate]

/-! ## Runs -/

theorem mem_visited_head (calls : List Call) (w : Owner) : w ∈ visited calls w := by
  cases calls with
  | nil => exact List.mem_singleton_self w
  | cons call calls =>
    unfold visited
    split
    · exact List.mem_singleton_self w
    · exact List.mem_cons_self

/-- From a state that owns what it should, the run stays equipped exactly when every MQTT_ERROR gets
    its transport, and then every state of it owns what it should. -/
theorem visited_iff (calls : List Call) (h : Owns w) :
    (Recreated calls w → ∀ v ∈ visited calls w, Owns v) ∧ ((∀ v ∈ visited calls w, Equipped v) → Recreated calls w) := by
  induction calls generalizing w with
  | nil =>
    refine ⟨fun _ v hv => ?_, fun _ => trivial⟩
    rw [List.mem_singleton.mp hv]
    exact h
  | cons call calls ih =>
    unfold visited Recreated
    rcases hc : w.comm with _ | c
    · refine ⟨fun _ v hv => ?_, fun _ c hn => by cases hn⟩
      rw [List.mem_singleton.mp hv]
      exact h
    · simp only
      refine ⟨fun hr v hv => ?_, fun he d hd => ?_⟩
      · obtain ⟨hg, hrest⟩ := hr c rfl
        have hnext := h.run hc hg
        rcases List.mem_cons.mp hv with rfl | hv
        · exact h
        · by_cases hret : (call.run c w).1 = true
          · rw [if_pos hret] at hv
            exact (ih hnext).1 (hrest hret) v hv
          · rw [if_neg hret] at hv
            rw [List.mem_singleton.mp hv]
            exact hnext
      · cases hd
        have hnext : Equipped (call.run c w).2 := by
          apply he
          apply List.mem_cons_of_mem
          by_cases hret : (call.run c w).1 = true
          · rw [if_pos hret]
            exact mem_visited_head _ _
          · rw [if_neg hret]
            exact List.mem_singleton_self _
        have hg : call.granted c := by
          by_contra hg
          exact unequipped_run hg hnext
        refine ⟨hg, fun hret => ?_⟩
        apply (ih (h.run hc hg)).2
        intro v hv
        apply he
        rw [if_pos hret]
        exact List.mem_cons_of_mem _ hv

/-- In a run in which neither call fails every state owns what it should: nothing leaks, and nothing
    is released twice. -/
theorem visited_owns {p : Arguments} {g : Grants} {calls : List Call} (h : ¬ LeftOver p g)
    (hr : Recreated calls (mqttCommCreate p g)) : ∀ v ∈ visited calls (mqttCommCreate p g), Owns v :=
  (visited_iff calls (create_owns h)).1 hr

/-- A communicator is created well, and stays equipped in every state of a run, exactly when without
    `security` it gets its first transport, and in every MQTT_ERROR the next one. -/
theorem handles_iff (p : Arguments) (g : Grants) (calls : List Call) :
    (CreatedWell (mqttCommCreate p g) ∧ ∀ v ∈ visited calls (mqttCommCreate p g), Equipped v) ↔
      ¬ LeftOver p g ∧ Recreated calls (mqttCommCreate p g) := by
  refine ⟨fun h => ?_, fun h => ?_⟩
  · have hleft : ¬ LeftOver p g := by
      intro hl
      have hw := leftOver_create hl
      obtain ⟨x, hx, -⟩ := (h.1.live _ (by rw [hw])).2
      cases hx
    exact ⟨hleft, (visited_iff calls (create_owns hleft)).2 h.2⟩
  · have howns := visited_owns h.1 h.2
    exact ⟨(create_owns h.1).createdWell, fun v hv => (howns v hv).equipped⟩

def plainArguments : Arguments := ⟨true, 1883, false, false, false, false⟩

def tlsArguments : Arguments := ⟨true, 8883, true, true, true, true⟩

def allGranted : Grants := ⟨true, true, true⟩

/-- Without TLS and without a transport, the client is freed and the communicator returned. With
    TLS, the connection is lost and `xio_create` fails: from then on no loop ends. -/
theorem handles_lost :
    ¬ CreatedWell (mqttCommCreate plainArguments ⟨true, true, false⟩) ∧
      (let lost := (visited [.startConnection, .process ⟨none, [⟨true, some .error⟩], true⟩, .process ⟨none, [], false⟩]
          (mqttCommCreate tlsArguments allGranted)).getLast?
      (lost.bind (·.comm)).map (·.state) = some .connecting ∧ (lost.bind (·.comm)).map (·.xioHandle) = some none ∧
        ∀ w ∈ lost, ¬ Equipped w) := by
  refine ⟨fun h => ?_, by decide, by decide, fun w hw he => ?_⟩
  · obtain ⟨x, hx, -⟩ := (h.live _ rfl).2
    cases hx
  · obtain rfl := (Option.some.inj hw).symm
    exact he.transport _ rfl (Or.inl rfl) rfl

/-! ## The communicator over its client -/

def grantsOf (host : CString) (ms : Mallocs) : Grants :=
  let r := malloc 220 ms
  let i := mqttClientInit true true true r.2
  ⟨r.1.isSome, i.1.isSome, (mallocAll [8, 56, 4, host.strlen + 1] i.2).1⟩

/-- It returns a communicator, with or without a transport, in the same cases. -/
theorem create_refines (host : CString) (port : Nat) (clientId userName password : Option CString) (a : Answers) :
    (Comm.mqttCommCreate (some host) port clientId userName password a).map (fun w =>
        (w.out.comm.xioHandle.isSome, w.out.comm.state, w.out.freed)) =
      (mqttCommCreate ⟨true, port, false, false, false, false⟩ (grantsOf host a.mallocs)).comm.map (fun c =>
        (c.xioHandle.isSome, c.state, c.xioHandle.isNone)) := by
  by_cases hp : port = 0
  · simp [Comm.mqttCommCreate, mqttCommCreate, Arguments.Accepted, hp, nothing]
  · have hacc : (⟨true, port, false, false, false, false⟩ : Arguments).Accepted := ⟨rfl, hp, fun h => by cases h⟩
    rcases hm : malloc 220 a.mallocs with ⟨block, ms⟩
    rcases hi : mqttClientInit true true true ms with ⟨client, ms'⟩
    simp only [Comm.mqttCommCreate, if_neg hp, hm, mqttCommCreate, grantsOf, if_neg (not_not.mpr hacc), hi]
    cases block with
    | none => rfl
    | some block =>
      cases client with
      | none => simp [hi, nothing, create, release]
      | some client =>
        cases hx : (mallocAll [8, 56, 4, host.strlen + 1] ms').1 with
        | true => simp [hi, Comm.xioCreate, xioCreate, Comm.Communicator.init, hx, onComm]
        | false => simp [hi, Comm.xioCreate, xioCreate, Comm.Communicator.init, hx, onComm]

/-- The loop of a communicator without a transport, however often it tries. -/
theorem retry_never_ends (xio : Xio Outside) (attempts : Nat) {w : Sys} (h : w.out.comm.xioHandle = none) :
    (Comm.connectLoop xio attempts w).1 ≠ 0 ∧ (Comm.connectLoop xio attempts w).2.out.comm = w.out.comm := by
  induction attempts generalizing w with
  | zero => exact ⟨show failure ≠ 0 by decide, rfl⟩
  | succ attempts ih =>
    have hcall : Client.mqttClientConnect xio w.out.comm.xioHandle w.out.comm.mqttOptions
        (note (.connect w.client.socketConnected) w) = (failure, note (.connect w.client.socketConnected) w) := by
      rw [h]
      rfl
    have hloop : Comm.connectLoop xio (attempts + 1) w = Comm.connectLoop xio attempts (note (.connect w.client.socketConnected) w) := by
      simp only [Comm.connectLoop, show (note (.connect w.client.socketConnected) w).out.comm = w.out.comm from rfl, hcall]
      exact if_pos (show failure ≠ 0 by decide)
    rw [hloop]
    exact ih h

end UMqtt.Comm.Handles
