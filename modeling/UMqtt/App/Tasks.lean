/-
  UMqtt.App.Tasks — the application task and its monitor (apps/mqtt/mqtt_app.c).

  `prvMqttAppTask` and `prvMqttMonitorTask` run in any order, a step at a time; `xMqttAppThread`,
  `appMqttComm` and the notification value of the monitor are all that they share. An `Event` says
  which of them goes on and what the calls it makes answer: whether `MQTT_Comm_Create` and
  `xTaskCreate` succeed, the state that `MQTT_Comm_Process` leaves, whether the monitor's wait is
  notified or runs out. Other tasks may set any bits (`network.c` sets 0x04).

  A task or a communicator that exists no more stays a number: `uses` are the calls and the reads
  that go through `xMqttAppThread` and `appMqttComm`, each with whether what it names existed.
  `gone` says that the task of `xMqttAppThread` has deleted itself, `dangling` that the monitor
  has destroyed the communicator of `appMqttComm`.

  Proved (`run_sound`): there is one application task at most and every use is valid, in every run
  in which the monitor's wait runs out only while neither `gone` nor `dangling`, bit 0x01 arrives
  behind the end of the task, and the application task does not run while the monitor destroys it.
-/

import UMqtt.Comm.Communicator

namespace UMqtt.App

open UMqtt.Lib UMqtt.Comm UMqtt.Client

/-! ## The board -/

abbrev TaskId := Nat

abbrev CommId := Nat

/-- What `prvMqttAppTask` does next. -/
inductive AppPoint where
  | create
  | check
  | start
  | process
  /-- In `MQTT_Comm_Process`, which has found this state. -/
  | inside (c : CommId) (state : Status)
  | notify
  | test
  | finish
  | delete
  deriving DecidableEq, Repr

inductive MonitorPoint where
  | first
  | create
  | enter
  | wait
  | destroy
  | delete
  | ended
  deriving DecidableEq, Repr

inductive Use where
  | vTaskDelete (t : TaskId) (valid : Bool)
  | mqttCommDestroy (c : CommId) (valid : Bool)
  | access (c : Option CommId) (valid : Bool)
  deriving DecidableEq, Repr

def Use.valid : Use → Bool
  | .vTaskDelete _ valid => valid
  | .mqttCommDestroy _ valid => valid
  | .access _ valid => valid

/-- `tasks` are the application tasks that exist, `comms` the states of the communicators that
    have been created and not freed. -/
structure Board where
  xMqttAppThread : Option TaskId
  appMqttComm : Option CommId
  tasks : List (TaskId × AppPoint)
  comms : CommId → Option Status
  monitor : MonitorPoint
  notified : Bool
  notifiedValue : UInt32
  nextTask : Nat
  nextComm : Nat
  gone : Bool
  dangling : Bool
  uses : List Use

inductive Event where
  /-- The application task goes on; `MQTT_Comm_Create` succeeds or not, and the client leaves a
      state. -/
  | app (t : TaskId) (created : Bool) (state : Status)
  | notify (bits : UInt32)
  /-- The monitor's `xTaskNotifyWait` returns pdTRUE. -/
  | wake
  | timeout
  | xTaskCreate (succeeds : Bool)
  | monitor
  deriving DecidableEq, Repr

namespace Board

def started : Board := ⟨none, none, [], fun _ => none, .first, false, 0, 0, 0, false, false, []⟩

/-! ## The kernel -/

def xTaskNotify (bits : UInt32) (w : Board) : Board :=
  { w with notified := true, notifiedValue := w.notifiedValue ||| bits }

def remove (t : TaskId) (w : Board) : Board := { w with tasks := w.tasks.filter fun x => x.1 ≠ t }

def deleteSelf (t : TaskId) (w : Board) : Board :=
  { w.remove t with gone := w.gone || decide (w.xMqttAppThread = some t) }

def goTo (t : TaskId) (p : AppPoint) (w : Board) : Board :=
  { w with tasks := w.tasks.map fun x => if x.1 = t then (t, p) else x }

/-! ## Communicators -/

def status (c : Option CommId) (w : Board) : Option Status := c.bind w.comms

def access (c : Option CommId) (w : Board) : Board := { w with uses := w.uses ++ [.access c (w.status c).isSome] }

/-- What is written to freed memory is lost. -/
def setStatus (c : CommId) (s : Status) (w : Board) : Board :=
  if (w.comms c).isSome then { w with comms := Function.update w.comms c (some s) } else w

def free (c : CommId) (w : Board) : Board := { w with comms := Function.update w.comms c none }

/-- The state behind a call of `MQTT_Comm_Process` that does not free the communicator, of which
    the client has made `outcome`. -/
def processed (state outcome : Status) : Status :=
  match state with
  | .error => .connecting
  | .connecting => if outcome = .connecting then .connected else outcome
  | _ => outcome

/-! ## The tasks -/

/-- A step of `prvMqttAppTask`. Freed memory reads as any state. -/
def prvMqttAppTask (t : TaskId) (p : AppPoint) (created : Bool) (state : Status) (w : Board) : Board :=
  match p with
  | .create =>
    if created then
      goTo t .check { w with
        appMqttComm := some w.nextComm
        comms := Function.update w.comms w.nextComm (some .disconnected)
        nextComm := w.nextComm + 1
        dangling := false }
    else goTo t .check { w with appMqttComm := none, dangling := false }
  | .check => if w.appMqttComm = none then deleteSelf t w else goTo t .start w
  | .start =>
    let w := access w.appMqttComm w
    goTo t .process (match w.appMqttComm with | none => w | some c => w.setStatus c .connecting)
  | .process =>
    match w.appMqttComm with
    | none => goTo t .notify w
    | some c =>
      match w.comms c with
      | none => goTo t .notify (access (some c) w)
      | some .disconnected => goTo t .notify (free c (access (some c) w))
      | some s => goTo t (.inside c s) (access (some c) w)
  | .inside c s => goTo t .notify (setStatus c (processed s state) (access (some c) w))
  | .notify => goTo t .test (xTaskNotify 0x02 w)
  | .test => goTo t (if (w.status w.appMqttComm).getD state = .disconnected then .finish else .process) (access w.appMqttComm w)
  | .finish => goTo t .delete (xTaskNotify 0x01 w)
  | .delete => deleteSelf t w

/-- `xTaskNotifyWait` returns pdTRUE, of which `clear` are the bits to clear on exit. -/
def notifiedWait (clear : UInt32) (next : MonitorPoint) (w : Board) : Board :=
  { w with notified := false, notifiedValue := w.notifiedValue &&& ~~~clear, monitor := next }

def prvMqttMonitorTask (e : Event) (w : Board) : Option Board :=
  match w.monitor, e with
  | .first, .wake => if w.notified then some (w.notifiedWait 0x01 .create) else none
  | .first, .timeout => if w.notified then none else some { w with monitor := .ended }
  | .create, .xTaskCreate succeeds =>
    if succeeds then
      some { w with
        xMqttAppThread := some w.nextTask
        tasks := w.tasks ++ [(w.nextTask, .create)]
        nextTask := w.nextTask + 1
        gone := false
        monitor := .enter }
    else some { w with monitor := .enter }
  | .enter, .monitor =>
    some { w with notifiedValue := if w.notified then w.notifiedValue else w.notifiedValue &&& ~~~0x07, monitor := .wait }
  | .wait, .wake =>
    if w.notified then some (w.notifiedWait 0x07 (if w.notifiedValue &&& 0x01 ≠ 0 then .create else .enter)) else none
  | .wait, .timeout => if w.notified then none else some { w with monitor := .destroy }
  | .destroy, .monitor =>
    match w.appMqttComm with
    | none => some { w with monitor := .delete }
    | some c =>
      some { w with
        comms := Function.update w.comms c none
        dangling := true
        monitor := .delete
        uses := w.uses ++ [.mqttCommDestroy c (w.comms c).isSome] }
  | .delete, .monitor =>
    match w.xMqttAppThread with
    | none => some { w with monitor := .create }
    | some t =>
      some { w.remove t with
        xMqttAppThread := none
        monitor := .create
        uses := w.uses ++ [.vTaskDelete t (decide (t ∈ w.tasks.map Prod.fst))] }
  | _, _ => none

def step (w : Board) (e : Event) : Option Board :=
  match e with
  | .app t created state => (w.tasks.find? fun x => x.1 = t).map fun x => w.prvMqttAppTask t x.2 created state
  | .notify bits => some (w.xTaskNotify bits)
  | e => w.prvMqttMonitorTask e

def run (es : List Event) (w : Board) : Option Board := es.foldlM step w

/-- `MQTT_Comm_Process` leaves such a state, and frees the communicator if it finds it
    disconnected. -/
theorem mqttCommProcess_processed (xio : Xio Outside) (app : App Outside) (attempts : Nat) {v v' : Sys}
    (h : mqttCommProcess xio app attempts v = (0, v')) :
    if v.out.comm.state = .disconnected then v'.out.freed = true
    else ∃ outcome, v'.out.comm.state = processed v.out.comm.state outcome := by
  unfold mqttCommProcess at h
  cases hs : v.out.comm.state with
  | connected => exact ⟨_, rfl⟩
  | disconnected =>
    simp only [hs] at h
    cases h
    rfl
  | connecting =>
    simp only [hs] at h
    have hne : v'.out.comm.state ≠ .connecting := by
      split at h
      · rename_i hfailed
        rw [h] at hfailed
        exact absurd rfl hfailed
      · split at h
        · cases h
          show Status.connected ≠ .connecting
          decide
        · cases h
          assumption
    exact ⟨v'.out.comm.state, (if_neg hne).symm⟩
  | error =>
    simp only [hs] at h
    cases h
    exact ⟨.error, rfl⟩

/-! ## What is asked of a run -/

/-- The monitor's wait runs out while the task it knows, if any, has not deleted itself and the
    communicator, if any, was created after the last one that it destroyed; bit 0x01 comes behind
    the end of the task; the application task waits while the monitor destroys it. -/
def Timely (w : Board) : Event → Prop
  | .app _ _ _ => w.monitor ≠ .destroy ∧ w.monitor ≠ .delete
  | .timeout => w.monitor = .wait → w.gone = false ∧ w.dangling = false
  | .wake => w.monitor = .wait → w.notifiedValue &&& 0x01 ≠ 0 → w.gone = true ∨ w.xMqttAppThread = none
  | _ => True

instance (w : Board) (e : Event) : Decidable (Timely w e) := by
  rcases e with _ | _ | _ | _ | _ | _ <;> simp only [Timely] <;> infer_instance

def Orderly : List Event → Board → Prop
  | [], _ => True
  | e :: es, w => Timely w e ∧ ∀ w', w.step e = some w' → Orderly es w'

instance decidableOrderly : ∀ (es : List Event) (w : Board), Decidable (Orderly es w)
  | [], _ => isTrue trivial
  | e :: es, w =>
    match h : w.step e with
    | none => decidable_of_iff (Timely w e) ⟨fun ht => ⟨ht, fun w' hw => absurd (h.symm.trans hw) (by simp)⟩, fun ht => ht.1⟩
    | some v =>
      have := decidableOrderly es v
      decidable_of_iff (Timely w e ∧ Orderly es v)
        ⟨fun ht => ⟨ht.1, fun w' hw => Option.some.inj (h.symm.trans hw) ▸ ht.2⟩, fun ht => ⟨ht.1, ht.2 v h⟩⟩

/-- At most one application task exists, and nothing that exists no more was used. -/
structure Sound (w : Board) : Prop where
  tasks : w.tasks.length ≤ 1
  uses : ∀ u ∈ w.uses, u.valid = true

instance (w : Board) : Decidable w.Sound :=
  decidable_of_iff (w.tasks.length ≤ 1 ∧ ∀ u ∈ w.uses, u.valid = true) ⟨fun h => ⟨h.1, h.2⟩, fun h => ⟨h.tasks, h.uses⟩⟩

/-! ## The invariant -/

/-- What the application task can rely on, where it is. -/
def Backed (w : Board) : AppPoint → Prop
  | .create | .finish | .delete => True
  | .check => w.dangling = false
  | .start | .notify | .test => w.dangling = false ∧ w.appMqttComm ≠ none
  | .process => w.dangling = false ∧ ∃ s, w.status w.appMqttComm = some s ∧ s ≠ .disconnected
  | .inside c s => w.dangling = false ∧ w.appMqttComm = some c ∧ s ≠ .disconnected

structure Inv (w : Board) : Prop where
  alone : w.tasks = [] ∨ ∃ t p, w.tasks = [(t, p)] ∧ w.xMqttAppThread = some t ∧ w.gone = false
  known : w.gone = false → ∀ t, w.xMqttAppThread = some t → w.tasks ≠ []
  creating : w.monitor = .first ∨ w.monitor = .create → w.tasks = []
  destroying : w.monitor = .destroy → w.gone = false ∧ w.dangling = false
  deleting : w.monitor = .delete → w.gone = false
  owned : w.dangling = false → ∀ c, w.appMqttComm = some c → (w.comms c).isSome = true
  backed : w.monitor ≠ .delete → ∀ x ∈ w.tasks, w.Backed x.2
  uses : ∀ u ∈ w.uses, u.valid = true

theorem started_inv : started.Inv := by
  refine ⟨.inl rfl, ?_, fun _ => rfl, ?_, ?_, ?_, ?_, ?_⟩
  · intro _ t h
    cases h
  · intro h
    cases h
  · intro h
    cases h
  · intro _ c h
    cases h
  · intro _ x hx
    cases hx
  · intro u hu
    cases hu

theorem Inv.sound {w : Board} (h : w.Inv) : w.Sound := by
  refine ⟨?_, h.uses⟩
  rcases h.alone with h | ⟨t, p, h, -, -⟩
  · rw [h]
    exact Nat.zero_le _
  · rw [h]
    exact Nat.le_refl _

/-! ## The application task -/

section AppTask

variable {w w' : Board} {t : TaskId} {p p' : AppPoint}

theorem goTo_tasks (ht : w.tasks = [(t, p)]) : (w.goTo t p').tasks = [(t, p')] := by simp [goTo, ht]

theorem remove_tasks (ht : w.tasks = [(t, p)]) : (w.remove t).tasks = [] := by simp [remove, ht]

/-- The one task goes on. -/
theorem Inv.goesOn (h : w.Inv) (hm : w.monitor ≠ .destroy ∧ w.monitor ≠ .delete) (ht : w.tasks = [(t, p)])
    (ht' : w'.tasks = [(t, p')]) (hmonitor : w'.monitor = w.monitor) (hthread : w'.xMqttAppThread = w.xMqttAppThread)
    (hgone : w'.gone = w.gone) (howned : w'.dangling = false → ∀ c, w'.appMqttComm = some c → (w'.comms c).isSome = true)
    (hbacked : w'.Backed p') (huses : ∀ u ∈ w'.uses, u.valid = true) : w'.Inv := by
  have hsame : w.xMqttAppThread = some t ∧ w.gone = false := by
    rcases h.alone with hnone | ⟨t', p', heq, hthread, hgone⟩
    · rw [ht] at hnone
      cases hnone
    · rw [ht] at heq
      cases heq
      exact ⟨hthread, hgone⟩
  refine ⟨.inr ⟨t, p', ht', hthread.trans hsame.1, hgone.trans hsame.2⟩, ?_, ?_, ?_, ?_, howned, ?_, huses⟩
  · intro _ _ _
    rw [ht']
    exact List.cons_ne_nil _ _
  · intro hc
    rw [hmonitor] at hc
    have hnone := h.creating hc
    rw [ht] at hnone
    cases hnone
  · intro hd
    exact absurd (hmonitor.symm.trans hd) hm.1
  · intro hd
    exact absurd (hmonitor.symm.trans hd) hm.2
  · intro _ x hx
    rw [ht', List.mem_singleton] at hx
    rw [hx]
    exact hbacked

theorem deleteSelf_inv (h : w.Inv) (hm : w.monitor ≠ .destroy ∧ w.monitor ≠ .delete) (ht : w.tasks = [(t, p)]) :
    (w.deleteSelf t).Inv := by
  have htasks : (w.deleteSelf t).tasks = [] := remove_tasks ht
  have hgone : (w.deleteSelf t).gone = true := by
    rcases h.alone with hnone | ⟨t', p', heq, hthread, -⟩
    · rw [ht] at hnone
      cases hnone
    · rw [ht] at heq
      cases heq
      simp [deleteSelf, hthread]
  refine ⟨.inl htasks, ?_, fun _ => htasks, ?_, ?_, h.owned, ?_, h.uses⟩
  · intro hg
    rw [hgone] at hg
    cases hg
  · intro hd
    exact absurd hd hm.1
  · intro hd
    exact absurd hd hm.2
  · intro _ x hx
    rw [htasks] at hx
    cases hx

theorem access_uses {c : CommId} {s : Status} (huses : ∀ u ∈ w.uses, u.valid = true) (hs : w.comms c = some s) :
    ∀ u ∈ (w.access (some c)).uses, u.valid = true := by
  intro u hu
  rcases List.mem_append.mp hu with hu | hu
  · exact huses u hu
  · rw [List.mem_singleton.mp hu]
    simp [Use.valid, status, hs]

theorem setStatus_live {c : CommId} {s s' : Status} (h : w.comms c = some s) :
    w.setStatus c s' = { w with comms := Function.update w.comms c (some s') } := if_pos (by rw [h]; rfl)

theorem update_owned {c : CommId} {s : Status} (h : w.dangling = false → ∀ c, w.appMqttComm = some c → (w.comms c).isSome = true) :
    w.dangling = false → ∀ c', w.appMqttComm = some c' → (Function.update w.comms c (some s) c').isSome = true := by
  intro hd c' hc'
  by_cases heq : c' = c
  · rw [heq, Function.update_self]
    rfl
  · rw [Function.update_of_ne heq]
    exact h hd c' hc'

/-- `MQTT_Comm_Create` returns. -/
theorem create_inv (h : w.Inv) (hm : w.monitor ≠ .destroy ∧ w.monitor ≠ .delete) (ht : w.tasks = [(t, .create)])
    (created : Bool) (state : Status) : (w.prvMqttAppTask t .create created state).Inv := by
  simp only [prvMqttAppTask]
  split
  · refine h.goesOn hm ht (goTo_tasks ht) rfl rfl rfl ?_ rfl h.uses
    intro _ c hc
    cases hc
    simp [goTo]
  · refine h.goesOn hm ht (goTo_tasks ht) rfl rfl rfl ?_ rfl h.uses
    intro _ c hc
    cases hc

/-- The task uses its communicator, which exists. -/
theorem backed_comm (h : w.Inv) (hd : w.dangling = false) (hc : w.appMqttComm ≠ none) :
    ∃ c s, w.appMqttComm = some c ∧ w.comms c = some s := by
  obtain ⟨c, hc⟩ := Option.ne_none_iff_exists'.mp hc
  obtain ⟨s, hs⟩ := Option.isSome_iff_exists.mp (h.owned hd c hc)
  exact ⟨c, s, hc, hs⟩

theorem prvMqttAppTask_inv (h : w.Inv) (hm : w.monitor ≠ .destroy ∧ w.monitor ≠ .delete) (ht : w.tasks = [(t, p)])
    (created : Bool) (state : Status) : (w.prvMqttAppTask t p created state).Inv := by
  have hbacked : w.Backed p := h.backed hm.2 (t, p) (by rw [ht]; exact List.mem_singleton_self _)
  cases p with
  | create => exact create_inv h hm ht created state
  | check =>
    simp only [prvMqttAppTask]
    split
    · exact deleteSelf_inv h hm ht
    · rename_i hc
      exact h.goesOn hm ht (goTo_tasks ht) rfl rfl rfl h.owned ⟨hbacked, hc⟩ h.uses
  | start =>
    obtain ⟨c, s, hc, hs⟩ := backed_comm h hbacked.1 hbacked.2
    have hlive : (w.access (some c)).comms c = some s := hs
    simp only [prvMqttAppTask, hc]
    rw [show (w.access (some c)).appMqttComm = some c from hc]
    simp only [setStatus_live hlive]
    refine h.goesOn hm ht (goTo_tasks ht) rfl rfl rfl (update_owned h.owned) ⟨hbacked.1, .connecting, ?_, by decide⟩ (access_uses h.uses hs)
    show w.appMqttComm.bind (Function.update w.comms c (some .connecting)) = some .connecting
    rw [hc]
    exact Function.update_self c _ _
  | process =>
    obtain ⟨hd, s, hs, hne⟩ := hbacked
    obtain ⟨c, hc, hlive⟩ := Option.bind_eq_some_iff.mp hs
    have hinside : ∀ s, s ≠ .disconnected → (goTo t (.inside c s) (w.access (some c))).Inv := by
      intro s hs
      exact h.goesOn hm ht (goTo_tasks ht) rfl rfl rfl h.owned ⟨hd, hc, hs⟩ (access_uses h.uses hlive)
    simp only [prvMqttAppTask, hc, hlive]
    cases s with
    | connected => exact hinside _ hne
    | disconnected => exact absurd rfl hne
    | connecting => exact hinside _ hne
    | error => exact hinside _ hne
  | inside c s =>
    obtain ⟨hd, hc, -⟩ := hbacked
    obtain ⟨s', hs⟩ := Option.isSome_iff_exists.mp (h.owned hd c hc)
    have hlive : (w.access (some c)).comms c = some s' := hs
    have hsome : w.appMqttComm ≠ none := by
      rw [hc]
      exact Option.some_ne_none c
    simp only [prvMqttAppTask, setStatus_live hlive]
    exact h.goesOn hm ht (goTo_tasks ht) rfl rfl rfl (update_owned h.owned) ⟨hd, hsome⟩ (access_uses h.uses hs)
  | notify => exact h.goesOn hm ht (goTo_tasks ht) rfl rfl rfl h.owned hbacked h.uses
  | test =>
    obtain ⟨c, s, hc, hs⟩ := backed_comm h hbacked.1 hbacked.2
    have hstatus : w.status w.appMqttComm = some s := by
      rw [hc]
      exact hs
    have huses : ∀ u ∈ (w.access w.appMqttComm).uses, u.valid = true := by
      rw [hc]
      exact access_uses h.uses hs
    simp only [prvMqttAppTask, hstatus, Option.getD_some]
    split
    · exact h.goesOn hm ht (goTo_tasks ht) rfl rfl rfl h.owned trivial huses
    · exact h.goesOn hm ht (goTo_tasks ht) rfl rfl rfl h.owned ⟨hbacked.1, s, hstatus, ‹_›⟩ huses
  | finish => exact h.goesOn hm ht (goTo_tasks ht) rfl rfl rfl h.owned trivial h.uses
  | delete => exact deleteSelf_inv h hm ht

end AppTask

/-! ## The monitor -/

section Monitor

variable {w w' : Board}

theorem Backed.same {p : AppPoint} (hdangling : w'.dangling = w.dangling) (hcomm : w'.appMqttComm = w.appMqttComm)
    (hcomms : w'.comms = w.comms) (h : w.Backed p) : w'.Backed p := by
  unfold Backed status at h ⊢
  rw [hdangling, hcomm, hcomms]
  exact h

/-- The monitor goes from one place to another, and nothing else changes but its notifications. -/
theorem Inv.moves (h : w.Inv) (notified : Bool) (value : UInt32) (m : MonitorPoint) (hfrom : w.monitor ≠ .delete)
    (hcreating : m = .first ∨ m = .create → w.tasks = []) (hdestroying : m = .destroy → w.gone = false ∧ w.dangling = false)
    (hdeleting : m = .delete → w.gone = false) :
    Inv { w with notified := notified, notifiedValue := value, monitor := m } := by
  refine ⟨h.alone, h.known, hcreating, hdestroying, hdeleting, h.owned, ?_, h.uses⟩
  intro _ x hx
  exact (h.backed hfrom x hx).same rfl rfl rfl

/-- The monitor goes to a wait, or ends. -/
theorem Inv.rests (h : w.Inv) (notified : Bool) (value : UInt32) (m : MonitorPoint) (hfrom : w.monitor ≠ .delete)
    (hto : m = .enter ∨ m = .wait ∨ m = .ended) : Inv { w with notified := notified, notifiedValue := value, monitor := m } := by
  refine h.moves notified value m hfrom ?_ ?_ ?_
  · intro hc
    rcases hto with rfl | rfl | rfl <;> rcases hc with hc | hc <;> cases hc
  · intro hd
    rcases hto with rfl | rfl | rfl <;> cases hd
  · intro hd
    rcases hto with rfl | rfl | rfl <;> cases hd

/-- `xTaskCreate`, when no application task exists. -/
theorem xTaskCreate_inv (h : w.Inv) (hm : w.monitor = .create) (succeeds : Bool)
    (hs : w.prvMqttMonitorTask (.xTaskCreate succeeds) = some w') : w'.Inv := by
  have hnone := h.creating (.inr hm)
  simp only [prvMqttMonitorTask, hm] at hs
  split at hs
  · cases hs
    refine ⟨.inr ⟨w.nextTask, .create, ?_, rfl, rfl⟩, ?_, ?_, ?_, ?_, h.owned, ?_, h.uses⟩
    · simp [hnone]
    · intro _ _ _
      simp
    · intro hc
      rcases hc with hc | hc <;> cases hc
    · intro hd
      cases hd
    · intro hd
      cases hd
    · intro _ x hx
      simp only [hnone, List.nil_append, List.mem_singleton] at hx
      rw [hx]
      trivial
  · cases hs
    exact h.rests _ _ .enter (by rw [hm]; decide) (.inl rfl)

/-- `MQTT_Comm_Destroy`, of a communicator that was not destroyed before. -/
theorem destroy_inv (h : w.Inv) (hm : w.monitor = .destroy) (hs : w.prvMqttMonitorTask .monitor = some w') : w'.Inv := by
  obtain ⟨hgone, hdangling⟩ := h.destroying hm
  simp only [prvMqttMonitorTask, hm] at hs
  split at hs
  · cases hs
    refine h.moves _ _ .delete (by rw [hm]; decide) ?_ ?_ fun _ => hgone
    · intro hc
      rcases hc with hc | hc <;> cases hc
    · intro hd
      cases hd
  · rename_i c hc
    cases hs
    refine ⟨h.alone, h.known, ?_, ?_, fun _ => hgone, ?_, ?_, ?_⟩
    · intro hc
      rcases hc with hc | hc <;> cases hc
    · intro hd
      cases hd
    · intro hd
      cases hd
    · intro hd
      exact absurd rfl hd
    · intro u hu
      rcases List.mem_append.mp hu with hu | hu
      · exact h.uses u hu
      · rw [List.mem_singleton.mp hu]
        exact h.owned hdangling c hc

/-- No application task is left. -/
theorem Inv.emptied (h : w.Inv) (htasks : w'.tasks = []) (hthread : w'.xMqttAppThread = none) (hm : w'.monitor = .create)
    (hdangling : w'.dangling = w.dangling) (hcomm : w'.appMqttComm = w.appMqttComm) (hcomms : w'.comms = w.comms)
    (huses : ∀ u ∈ w'.uses, u.valid = true) : w'.Inv := by
  refine ⟨.inl htasks, ?_, fun _ => htasks, ?_, ?_, ?_, ?_, huses⟩
  · intro _ t ht
    rw [hthread] at ht
    cases ht
  · intro hd
    rw [hm] at hd
    cases hd
  · intro hd
    rw [hm] at hd
    cases hd
  · rw [hdangling, hcomm, hcomms]
    exact h.owned
  · intro _ x hx
    rw [htasks] at hx
    cases hx

/-- `vTaskDelete`, of a task that has not deleted itself. -/
theorem delete_inv (h : w.Inv) (hm : w.monitor = .delete) (hs : w.prvMqttMonitorTask .monitor = some w') : w'.Inv := by
  have hgone := h.deleting hm
  simp only [prvMqttMonitorTask, hm] at hs
  rcases h.alone with hnone | ⟨t, p, ht, hthread, -⟩
  · cases hthread : w.xMqttAppThread with
    | none =>
      rw [hthread] at hs
      cases hs
      exact h.emptied hnone rfl rfl rfl rfl rfl h.uses
    | some t => exact absurd hnone (h.known hgone t hthread)
  · rw [hthread] at hs
    cases hs
    refine h.emptied (remove_tasks ht) rfl rfl rfl rfl rfl ?_
    intro u hu
    rcases List.mem_append.mp hu with hu | hu
    · exact h.uses u hu
    · rw [List.mem_singleton.mp hu]
      simp [Use.valid, ht]

theorem prvMqttMonitorTask_inv {e : Event} (h : w.Inv) (ht : w.Timely e) (hs : w.prvMqttMonitorTask e = some w') : w'.Inv := by
  have hcopy := hs
  unfold prvMqttMonitorTask at hs
  split at hs
  · rename_i hm
    split at hs
    · cases hs
      refine h.moves _ _ .create (by rw [hm]; decide) (fun _ => h.creating (.inl hm)) ?_ ?_
      · intro hd
        cases hd
      · intro hd
        cases hd
    · cases hs
  · rename_i hm
    split at hs
    · cases hs
    · cases hs
      exact h.rests _ _ .ended (by rw [hm]; decide) (.inr (.inr rfl))
  · exact xTaskCreate_inv h ‹_› _ hcopy
  · rename_i hm
    cases hs
    exact h.rests _ _ .wait (by rw [hm]; decide) (.inr (.inl rfl))
  · rename_i hm
    split at hs
    · cases hs
      by_cases hbit : w.notifiedValue &&& 0x01 ≠ 0
      · have hnone : w.tasks = [] := by
          rcases h.alone with hnone | ⟨t, p, -, hthread, hgone⟩
          · exact hnone
          · rcases ht hm hbit with hgone' | hthread'
            · exact absurd (hgone.symm.trans hgone') (by decide)
            · exact absurd (hthread.symm.trans hthread') (Option.some_ne_none t)
        rw [if_pos hbit]
        refine h.moves _ _ .create (by rw [hm]; decide) (fun _ => hnone) ?_ ?_
        · intro hd
          cases hd
        · intro hd
          cases hd
      · rw [if_neg hbit]
        exact h.rests _ _ .enter (by rw [hm]; decide) (.inl rfl)
    · cases hs
  · rename_i hm
    split at hs
    · cases hs
    · cases hs
      have htimely := ht hm
      refine h.moves _ _ .destroy (by rw [hm]; decide) ?_ (fun _ => htimely) ?_
      · intro hc
        rcases hc with hc | hc <;> cases hc
      · intro hd
        cases hd
  · exact destroy_inv h ‹_› hcopy
  · exact delete_inv h ‹_› hcopy
  · cases hs

end Monitor

/-! ## Runs -/

theorem step_inv {w w' : Board} {e : Event} (h : w.Inv) (ht : w.Timely e) (hs : w.step e = some w') : w'.Inv := by
  cases e with
  | app t created state =>
    obtain ⟨x, hx, rfl⟩ := Option.map_eq_some_iff.mp hs
    have hxt : x.1 = t := by simpa using List.find?_some hx
    rcases h.alone with hnone | ⟨t', p, htasks, -, -⟩
    · rw [hnone] at hx
      cases hx
    · have hmem := List.mem_of_find?_eq_some hx
      rw [htasks, List.mem_singleton] at hmem
      rw [hmem] at hxt
      subst hxt
      rw [hmem]
      exact prvMqttAppTask_inv h ht htasks created state
  | notify bits =>
    cases hs
    exact ⟨h.alone, h.known, h.creating, h.destroying, h.deleting, h.owned, h.backed, h.uses⟩
  | wake => exact prvMqttMonitorTask_inv h ht hs
  | timeout => exact prvMqttMonitorTask_inv h ht hs
  | xTaskCreate succeeds => exact prvMqttMonitorTask_inv h ht hs
  | monitor => exact prvMqttMonitorTask_inv h ht hs

theorem run_inv {es : List Event} {w w' : Board} (h : w.Inv) (ho : Orderly es w) (hr : run es w = some w') : w'.Inv := by
  induction es generalizing w with
  | nil =>
    cases hr
    exact h
  | cons e es ih =>
    rw [run, List.foldlM_cons] at hr
    obtain ⟨v, hv, hrest⟩ := Option.bind_eq_some_iff.mp hr
    exact ih (step_inv h ho.1 hv) (ho.2 v hv) hrest

/-- In every run of the two tasks whose steps are timely there is one application task at most,
    and the monitor and the task use nothing that exists no more. -/
theorem run_sound {es : List Event} {w : Board} (ho : Orderly es started) (hr : run es started = some w) : w.Sound :=
  (run_inv started_inv ho hr).sound

/-- The broker disconnects the task, and it is started again; then it is halted. -/
def restarts : List Event :=
  [.notify 0x04, .wake, .xTaskCreate true, .monitor, .app 0 true .connected, .app 0 true .connected, .app 0 true .connected,
    .app 0 true .connected, .app 0 true .disconnected, .app 0 true .connected, .app 0 true .connected, .app 0 true .connected,
    .app 0 true .connected, .wake, .xTaskCreate true, .monitor, .app 1 true .connected, .app 1 true .connected,
    .app 1 true .connected, .app 1 true .connected, .timeout, .monitor, .monitor, .xTaskCreate true]

theorem run_sound_restarts : ∃ w, run restarts started = some w ∧ w.Sound :=
  ⟨_, rfl, run_sound (show Orderly restarts started by decide +kernel) rfl⟩

/-- The task finds no communicator and deletes itself: the wait runs out, and the monitor deletes
    it again. The task is disconnected: the monitor starts another one before it has deleted
    itself. The monitor restarts a halted task in vain: the wait runs out again, and the monitor
    destroys the communicator once more. The task goes on between the two calls that end it. -/
theorem handles_outlive :
    (∃ w, run [.notify 0x04, .wake, .xTaskCreate true, .monitor, .app 0 false .connected, .app 0 false .connected, .timeout, .monitor,
        .monitor] started = some w ∧ w.uses = [.vTaskDelete 0 false] ∧ ¬ w.Sound) ∧
    (∃ w, run [.notify 0x04, .wake, .xTaskCreate true, .monitor, .app 0 true .connected, .app 0 true .connected, .app 0 true .connected,
        .app 0 true .connected, .app 0 true .disconnected, .app 0 true .connected, .app 0 true .connected, .app 0 true .connected,
        .wake, .xTaskCreate true] started = some w ∧ w.tasks.length = 2 ∧ ¬ w.Sound) ∧
    (∃ w, run [.notify 0x04, .wake, .xTaskCreate true, .monitor, .app 0 true .connected, .timeout, .monitor, .monitor,
        .xTaskCreate false, .monitor, .timeout, .monitor] started = some w ∧
      w.uses = [.mqttCommDestroy 0 true, .vTaskDelete 0 true, .mqttCommDestroy 0 false] ∧ ¬ w.Sound) ∧
    (∃ w, run [.notify 0x04, .wake, .xTaskCreate true, .monitor, .app 0 true .connected, .app 0 true .connected, .timeout, .monitor,
        .app 0 true .connected] started = some w ∧ w.uses = [.mqttCommDestroy 0 true, .access (some 0) false] ∧ ¬ w.Sound) :=
  ⟨⟨_, rfl, rfl, by decide⟩, ⟨_, rfl, rfl, by decide⟩, ⟨_, rfl, rfl, by decide⟩, ⟨_, rfl, rfl, by decide⟩⟩

end Board

end UMqtt.App
