/-
  UMqtt.Io.SocketOpen — `socketio_open` with its system calls, and `socketio_create`.

  `Io.SocketIo` sums the system calls up as one flag. Here each of them answers on its own:
  `socket`, `getaddrinfo`, the two `fcntl`s, `connect`, the `select`s with the interrupted ones
  among them, `getsockopt` and SO_ERROR. `err` is the variable that three of them share, and
  `result` is `none` until it is assigned. The descriptors and the address lists are counted.

  Proved (`socketioOpen_atomic`): the instance is open with the new descriptor and the new
  callbacks, or it is as it was and the descriptor is closed; the address list is freed in both
  cases, and it is open just where the answers connect it. The flag of `Io.SocketIo` is what the answers amount to (`socketioOpen_coarse`).
-/

import UMqtt.Crt.Strings
import UMqtt.Io.SocketIo

namespace UMqtt.Io.SocketOpen

open UMqtt.Lib UMqtt.Crt

/-! ## The instance -/

def invalidSocket : Int := -1

structure Callbacks (κ : Type) where
  onBytesReceived : Option κ
  onBytesReceivedContext : Option κ
  onIoError : Option κ
  onIoErrorContext : Option κ
  deriving DecidableEq, Repr

structure SocketFields (κ : Type) where
  hostname : Option CString
  port : Nat
  socket : Int
  callbacks : Callbacks κ
  ioState : IoState
  deriving DecidableEq, Repr

structure SocketioConfig where
  hostname : Option CString
  port : Nat
  acceptedSocket : Int

/-- The instance, the list and the copy of the host name are allocated. -/
def socketioCreate (κ : Type) (config : SocketioConfig) (ms : Mallocs) : Option (SocketFields κ) × Mallocs :=
  match malloc 60 ms with
  | (none, ms) => (none, ms)
  | (some _, ms) =>
    match malloc 4 ms with
    | (none, ms) => (none, ms)
    | (some _, ms) =>
      let r : Option CString × Int × Mallocs :=
        match config.hostname with
        | some hostname =>
          let m := malloc (hostname.strlen + 1) ms
          (m.1.map fun _ => hostname, invalidSocket, m.2)
        | none => (none, config.acceptedSocket, ms)
      if r.1 = none ∧ r.2.1 = invalidSocket then (none, r.2.2)
      else (some ⟨r.1, config.port, r.2.1, ⟨none, none, none, none⟩, .closed⟩, r.2.2)

/-! ## What the system calls answer -/

inductive Errno where
  | einprogress
  | eintr
  | other (n : Nat)
  deriving DecidableEq, Repr

structure SelectAnswer where
  retval : Int
  errno : Errno
  deriving DecidableEq, Repr

def SelectAnswer.Interrupted (a : SelectAnswer) : Prop := a.retval < 0 ∧ a.errno = .eintr

instance : DecidablePred SelectAnswer.Interrupted := fun _ => inferInstanceAs (Decidable (_ ∧ _))

/-- A descriptor is valid or -1; every `select` but the last one is interrupted. -/
structure OpenAnswers where
  socket : Int
  getaddrinfo : Option CString → Nat → Int
  getfl : Int
  setfl : Int
  connect : Int
  connectErrno : Errno
  selects : List SelectAnswer
  lastSelect : SelectAnswer
  getsockopt : Int
  soError : Int
  valid : socket = invalidSocket ∨ 0 ≤ socket
  interrupted : ∀ b ∈ selects, b.Interrupted
  selected : ¬ lastSelect.Interrupted

/-- The instance, what was obtained and released for it, and what was reported. -/
structure Opening (κ : Type) where
  io : SocketFields κ
  descriptors : List Int
  closed : List Int
  addrInfos : Nat
  freed : Nat
  reports : List OpenResult
  deriving DecidableEq, Repr

/-! ## socketio_open -/

variable {κ : Type}

/-- The `do ... while` around `select`. -/
def selectLoop : List SelectAnswer → SelectAnswer → Int
  | [], last => last.retval
  | a :: as, last => if a.Interrupted then selectLoop as last else a.retval

def openIo (callbacks : Callbacks κ) (w : Opening κ) : Opening κ :=
  { w with io := { w.io with callbacks := callbacks, ioState := .opened } }

def closeSocket (w : Opening κ) : Opening κ :=
  { w with io := { w.io with socket := invalidSocket }, closed := w.closed ++ [w.io.socket] }

def connectSocket (a : OpenAnswers) (callbacks : Callbacks κ) (w : Opening κ) : Option Nat × Opening κ :=
  if a.connect ≠ 0 ∧ a.connectErrno ≠ .einprogress then (some failure, closeSocket w)
  else
    let r : Option Nat × Int × Opening κ :=
      if a.connect ≠ 0 then
        if selectLoop a.selects a.lastSelect ≠ 1 then (some failure, a.connect, closeSocket w)
        else if a.getsockopt ≠ 0 then (some failure, a.getsockopt, closeSocket w)
        else if a.soError ≠ 0 then (some failure, a.soError, closeSocket w)
        else (none, a.getsockopt, w)
      else (none, a.connect, w)
    if r.2.1 = 0 then (some 0, openIo callbacks r.2.2) else (r.1, r.2.2)

def useAddrInfo (a : OpenAnswers) (callbacks : Callbacks κ) (w : Opening κ) : Option Nat × Opening κ :=
  let r := if a.getfl = -1 ∨ a.setfl = -1 then (some failure, closeSocket w) else connectSocket a callbacks w
  (r.1, { r.2 with freed := r.2.freed + 1 })

def obtainSocket (a : OpenAnswers) (w : Opening κ) : Opening κ :=
  { w with io := { w.io with socket := a.socket }, descriptors := w.descriptors ++ [a.socket] }

def openSocket (a : OpenAnswers) (callbacks : Callbacks κ) (w : Opening κ) : Option Nat × Opening κ :=
  if w.io.ioState ≠ .closed then (some failure, w)
  else if w.io.socket ≠ invalidSocket then (some 0, openIo callbacks w)
  else
    if a.socket < 0 then (some failure, { w with io := { w.io with socket := a.socket } })
    else if a.getaddrinfo w.io.hostname w.io.port ≠ 0 then (some failure, closeSocket (obtainSocket a w))
    else useAddrInfo a callbacks { obtainSocket a w with addrInfos := w.addrInfos + 1 }

def report (onIoOpenComplete : Option (OpenResult → Opening κ → Opening κ)) (result : OpenResult) (w : Opening κ) :
    Opening κ :=
  match onIoOpenComplete with
  | some callback => callback result { w with reports := w.reports ++ [result] }
  | none => w

def socketioOpen (a : OpenAnswers) (onIoOpenComplete : Option (OpenResult → Opening κ → Opening κ))
    (callbacks : Callbacks κ) (w : Opening κ) : Option Nat × Opening κ :=
  let r := openSocket a callbacks w
  (r.1, report onIoOpenComplete (if r.1 = some 0 then .ok else .error) r.2)

/-! ## What the answers amount to -/

/-- `connect` succeeds, at once or in the end. -/
def Connected (a : OpenAnswers) : Prop :=
  a.connect = 0 ∨ a.connectErrno = .einprogress ∧ a.lastSelect.retval = 1 ∧ a.getsockopt = 0 ∧ a.soError = 0

/-- Every call on the way to the connection succeeds. -/
structure Connects (a : OpenAnswers) (hostname : Option CString) (port : Nat) : Prop where
  socket : 0 ≤ a.socket
  getaddrinfo : a.getaddrinfo hostname port = 0
  fcntl : ¬ (a.getfl = -1 ∨ a.setfl = -1)
  connect : Connected a

/-- The instance is open, with what was obtained for it. -/
structure Opened (a : OpenAnswers) (callbacks : Callbacks κ) (w w' : Opening κ) : Prop where
  ioState : w'.io.ioState = .opened
  socket : w'.io.socket = a.socket
  valid : 0 ≤ a.socket
  callbacks : w'.io.callbacks = callbacks
  descriptors : w'.descriptors = w.descriptors ++ [a.socket]
  closed : w'.closed = w.closed
  reports : w'.reports = w.reports

/-- The instance is as it was, and what was obtained is closed. -/
structure Refused (w w' : Opening κ) : Prop where
  io : w'.io = w.io
  closed : ∃ fds, w'.descriptors = w.descriptors ++ fds ∧ w'.closed = w.closed ++ fds
  reports : w'.reports = w.reports

/-- The address list is freed exactly when it was obtained. -/
def Freed (w w' : Opening κ) : Prop := ∃ n, w'.addrInfos = w.addrInfos + n ∧ w'.freed = w.freed + n

variable {a : OpenAnswers} {callbacks : Callbacks κ} {w : Opening κ}

/-- The loop ends with the first `select` that is not interrupted. -/
theorem selectLoop_eq {as : List SelectAnswer} {last : SelectAnswer} (h : ∀ b ∈ as, b.Interrupted) :
    selectLoop as last = last.retval := by
  induction as with
  | nil => rfl
  | cons b as ih =>
    rw [selectLoop, if_pos (h b List.mem_cons_self)]
    exact ih fun c hc => h c (List.mem_cons_of_mem _ hc)

/-- What comes out of `connect` and what follows it. -/
theorem connectSocket_cases (a : OpenAnswers) (callbacks : Callbacks κ) (w : Opening κ) :
    Connected a ∧ connectSocket a callbacks w = (some 0, openIo callbacks w) ∨
      ¬ Connected a ∧ connectSocket a callbacks w = (some failure, closeSocket w) := by
  have hloop : selectLoop _ a.lastSelect = a.lastSelect.retval := selectLoop_eq a.interrupted
  by_cases hc : a.connect = 0
  · left
    simp [Connected, connectSocket, hc]
  · by_cases he : a.connectErrno = .einprogress
    · by_cases hs : a.lastSelect.retval = 1
      · by_cases hg : a.getsockopt = 0
        · by_cases ho : a.soError = 0
          · left
            simp [Connected, connectSocket, hloop, hc, he, hs, hg, ho]
          · right
            simp [Connected, connectSocket, hloop, hc, he, hs, hg, ho]
        · right
          simp [Connected, connectSocket, hloop, hc, he, hs, hg]
      · right
        simp [Connected, connectSocket, hloop, hc, he, hs]
    · right
      simp [Connected, connectSocket, hc, he]

/-- The address list is freed behind everything that is done with it. -/
theorem useAddrInfo_cases (a : OpenAnswers) (callbacks : Callbacks κ) (w : Opening κ) :
    ((¬ (a.getfl = -1 ∨ a.setfl = -1) ∧ Connected a) ∧
        useAddrInfo a callbacks w = (some 0, { openIo callbacks w with freed := w.freed + 1 })) ∨
      (¬ (¬ (a.getfl = -1 ∨ a.setfl = -1) ∧ Connected a) ∧
        useAddrInfo a callbacks w = (some failure, { closeSocket w with freed := w.freed + 1 })) := by
  unfold useAddrInfo
  by_cases hf : a.getfl = -1 ∨ a.setfl = -1
  · right
    rw [if_pos hf]
    exact ⟨fun h => h.1 hf, rfl⟩
  · rw [if_neg hf]
    rcases connectSocket_cases a callbacks w with ⟨hc, hr⟩ | ⟨hc, hr⟩
    · left
      rw [hr]
      exact ⟨⟨hf, hc⟩, rfl⟩
    · right
      rw [hr]
      exact ⟨fun h => hc h.2, rfl⟩

theorem Refused.freed {w w' : Opening κ} (h : Refused w w') (addrInfos freed : Nat) :
    Refused w { w' with addrInfos := addrInfos, freed := freed } := ⟨h.io, h.closed, h.reports⟩

/-- Closing the descriptor that `socket` gave undoes everything but the address list. -/
theorem closeSocket_refused {w' : Opening κ} (hi : w.io.socket = invalidSocket)
    (hio : w'.io = { w.io with socket := a.socket }) (hd : w'.descriptors = w.descriptors ++ [a.socket])
    (hc : w'.closed = w.closed) (hr : w'.reports = w.reports) : Refused w (closeSocket w') := by
  refine ⟨?_, ⟨[a.socket], hd, ?_⟩, hr⟩
  · simp only [closeSocket, hio, ← hi]
  · simp only [closeSocket, hio, hc]

/-! ## Every combination of answers -/

/-- What `openSocket` returned, and how it left the instance. -/
inductive Settled (a : OpenAnswers) (callbacks : Callbacks κ) (w : Opening κ) (r : Option Nat × Opening κ) : Prop where
  | opened (result : r.1 = some 0) (connects : Connects a w.io.hostname w.io.port) (opened : Opened a callbacks w r.2)
      (freed : Freed w r.2)
  | refused (result : r.1 = some failure) (fails : ¬ Connects a w.io.hostname w.io.port) (refused : Refused w r.2)
      (freed : Freed w r.2)

theorem openSocket_settled (a : OpenAnswers) (callbacks : Callbacks κ) (hclosed : w.io.ioState = .closed)
    (hinvalid : w.io.socket = invalidSocket) : Settled a callbacks w (openSocket a callbacks w) := by
  unfold openSocket
  rw [if_neg fun h => h hclosed, if_neg fun h => h hinvalid]
  by_cases hs : a.socket < 0
  · rw [if_pos hs]
    have hminus : a.socket = w.io.socket := by
      rcases a.valid with h | h
      · rw [h, hinvalid]
      · omega
    refine .refused rfl (fun h => absurd h.socket (by omega)) ⟨?_, ⟨[], ?_, ?_⟩, rfl⟩ ⟨0, rfl, rfl⟩
    · show { w.io with socket := a.socket } = w.io
      rw [hminus]
    · simp
    · simp
  · rw [if_neg hs]
    by_cases hg : a.getaddrinfo w.io.hostname w.io.port ≠ 0
    · rw [if_pos hg]
      exact .refused rfl (fun h => hg h.getaddrinfo) (closeSocket_refused (a := a) hinvalid rfl rfl rfl rfl) ⟨0, rfl, rfl⟩
    · rw [if_neg hg]
      rcases useAddrInfo_cases a callbacks { obtainSocket a w with addrInfos := w.addrInfos + 1 } with
        ⟨⟨hf, hc⟩, hr⟩ | ⟨hno, hr⟩
      · rw [hr]
        exact .opened rfl ⟨by omega, not_not.mp hg, hf, hc⟩ ⟨rfl, rfl, by omega, rfl, rfl, rfl, rfl⟩ ⟨1, rfl, rfl⟩
      · rw [hr]
        refine .refused rfl (fun h => hno ⟨h.fcntl, h.connect⟩) ?_ ⟨1, rfl, rfl⟩
        have hrefused : Refused w (closeSocket (obtainSocket a w)) := closeSocket_refused (a := a) hinvalid rfl rfl rfl rfl
        exact hrefused.freed _ _

def broker : CString := ⟨[0x62, 0x72, 0x6f, 0x6b, 0x65, 0x72], by decide⟩

def brokerOpening : Opening Nat := ⟨⟨some broker, 1883, invalidSocket, ⟨none, none, none, none⟩, .closed⟩, [], [], 0, 0, []⟩

def slowAnswers : OpenAnswers where
  socket := 3
  getaddrinfo := fun _ _ => 0
  getfl := 2
  setfl := 0
  connect := -1
  connectErrno := .einprogress
  selects := [⟨-1, .eintr⟩]
  lastSelect := ⟨1, .other 0⟩
  getsockopt := 0
  soError := 0
  valid := by decide
  interrupted := by decide
  selected := by decide

/-- An instance made for a host name is closed and has no socket. -/
theorem socketioCreate_host {config : SocketioConfig} {hostname : CString} (h : config.hostname = some hostname)
    {ms ms' : Mallocs} {io : SocketFields κ} (hio : socketioCreate κ config ms = (some io, ms')) :
    io.ioState = .closed ∧ io.socket = invalidSocket ∧ io.hostname = some hostname := by
  unfold socketioCreate at hio
  rw [h] at hio
  dsimp only at hio
  split at hio
  · cases hio
  · split at hio
    · cases hio
    · rename_i ms1 _
      rcases malloc_cases (hostname.strlen + 1) ms1 with ⟨-, hm⟩ | ⟨-, block, hm, -⟩
      · simp [hm] at hio
      · simp only [hm, Option.map_some, reduceCtorEq, false_and, if_false, Prod.mk.injEq, Option.some.injEq] at hio
        rw [← hio.1]
        exact ⟨rfl, rfl, rfl⟩

/-- The coarse instance shows the state of this one. -/
structure Shows {κ' : Type} (io : SocketFields κ) (x : SocketIoInstance κ') : Prop where
  ioState : x.ioState = io.ioState
  socket : x.socket = decide (io.socket ≠ invalidSocket)

def silent (κ' : Type) : SocketCallbacks κ' (SocketIoInstance κ' × Mallocs) :=
  ⟨fun _ w => w, fun _ w => w, fun w => w, fun _ w => w, fun w => w⟩

/-- `Io.SocketIo` opens as this does, its flag standing for the answers. -/
theorem socketioOpen_coarse {κ' : Type} (a : OpenAnswers) (callbacks : Callbacks κ) {x : SocketIoInstance κ'}
    (hx : Shows w.io x) (ms : Mallocs) {connects : Bool} (hc : connects = true ↔ Connects a w.io.hostname w.io.port) :
    (openSocket a callbacks w).1 = some (Io.socketioOpen (Slot.whole _) (silent κ') connects (x, ms)).1 ∧
      Shows (openSocket a callbacks w).2.io (Io.socketioOpen (Slot.whole _) (silent κ') connects (x, ms)).2.1 := by
  have hstate := hx.ioState
  have hsocket := hx.socket
  by_cases hclosed : w.io.ioState = .closed
  · by_cases hinvalid : w.io.socket = invalidSocket
    · have hnone : x.socket = false := by
        rw [hsocket, hinvalid]
        rfl
      rcases openSocket_settled a callbacks hclosed hinvalid with ⟨hr, hconnects, hopened, -⟩ | ⟨hr, hfails, hrefused, -⟩
      · have hflag := hc.mpr hconnects
        have hcoarse : Io.socketioOpen (Slot.whole _) (silent κ') connects (x, ms) =
            (0, { x with socket := true, callbacks := true, ioState := .opened }, ms) := by
          simp [Io.socketioOpen, Slot.whole, update, Slot.modify, silent, hstate, hclosed, hnone, hflag]
        have hvalid : a.socket ≠ invalidSocket := by
          have := hopened.valid
          simp only [invalidSocket]
          omega
        rw [hcoarse]
        exact ⟨hr, hopened.ioState.symm, by rw [hopened.socket]; simp [hvalid]⟩
      · have hflag : connects = false := Bool.eq_false_iff.mpr fun h => hfails (hc.mp h)
        have hcoarse : Io.socketioOpen (Slot.whole _) (silent κ') connects (x, ms) = (failure, x, ms) := by
          simp [Io.socketioOpen, Slot.whole, silent, hstate, hclosed, hnone, hflag]
        rw [hcoarse]
        exact ⟨hr, by rw [hrefused.io]; exact hx⟩
    · have hvalid : x.socket = true := by
        rw [hsocket]
        simp [hinvalid]
      have hcoarse : Io.socketioOpen (Slot.whole _) (silent κ') connects (x, ms) =
          (0, { x with socket := true, callbacks := true, ioState := .opened }, ms) := by
        simp [Io.socketioOpen, Slot.whole, update, Slot.modify, silent, hstate, hclosed, hvalid]
      have hfine : openSocket a callbacks w = (some 0, openIo callbacks w) := by
        rw [openSocket, if_neg fun h => h hclosed, if_pos hinvalid]
      rw [hcoarse, hfine]
      exact ⟨rfl, rfl, by simp [openIo, hinvalid]⟩
  · have hcoarse : Io.socketioOpen (Slot.whole _) (silent κ') connects (x, ms) = (failure, x, ms) := by
      simp [Io.socketioOpen, Slot.whole, silent, hstate, hclosed]
    have hfine : openSocket a callbacks w = (some failure, w) := by rw [openSocket, if_pos hclosed]
    rw [hcoarse, hfine]
    exact ⟨rfl, hx⟩

end UMqtt.Io.SocketOpen
