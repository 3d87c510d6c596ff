/-
  UMqtt.Client.Options — whose options a connection has.

  `cloneMqttOptions` copies each of the five strings when it is there and leaves the stored
  one alone when it is not. What an earlier connect has stored is still there unless a
  disconnect or a failed open has cleared it, so a string that is NULL in a later connect
  call comes from an earlier one (`stored_options`).

  Proved (`options_run`): in a run of the client among any surroundings, every
  `mqtt_client_connect` opens its transport with its own options, and every CONNECT is built
  from the last options passed, exactly when each string that is NULL in such a call is NULL
  in the client when it is called (`Note.NullsKept`). `username_survives` is a run where one
  is not.
-/

import UMqtt.Client.Surroundings
import UMqtt.Lib.History

namespace UMqtt.Client.Options

open UMqtt.Lib UMqtt.Crt UMqtt.Codec UMqtt.Io

/-! ## One call -/

def stringOptions : List StringOption :=
  [clientIdOption, willTopicOption, willMessageOption, usernameOption, passwordOption]

/-- Each string that is NULL in the options passed is NULL in the ones stored. -/
def NullsIn (passed stored : MqttClientOptions) : Prop :=
  ∀ field ∈ stringOptions, field.get passed = none → field.get stored = none

instance (passed stored : MqttClientOptions) : Decidable (NullsIn passed stored) := List.decidableBAll _ _

def Blank (o : MqttClientOptions) : Prop := ∀ field ∈ stringOptions, field.get o = none

theorem clear_blank (o : MqttClientOptions) : Blank (clearMqttOptions o) := by
  simp [Blank, stringOptions, clearMqttOptions, clientIdOption, willTopicOption, willMessageOption, usernameOption,
    passwordOption]

def overlay (passed stored : MqttClientOptions) : MqttClientOptions :=
  { passed with
    clientId := passed.clientId.or stored.clientId
    willTopic := passed.willTopic.or stored.willTopic
    willMessage := passed.willMessage.or stored.willMessage
    username := passed.username.or stored.username
    password := passed.password.or stored.password }

/-- One copy that has not failed. -/
theorem copy_succeeded {field : StringOption} {passed : MqttClientOptions} {c : Cloning}
    (h : (c.copy field passed).result = 0) :
    c.result = 0 ∧ (c.copy field passed).options = field.set ((field.get passed).or (field.get c.options)) c.options := by
  unfold Cloning.copy at h ⊢
  by_cases hr : c.result = 0
  · rw [if_pos hr] at h ⊢
    refine ⟨hr, ?_⟩
    cases hf : field.get passed with
    | none => rw [Option.none_or, field.set_get]
    | some source =>
      simp only [hf, mallocAndStrcpy] at h ⊢
      rcases hm : malloc (source.strlen + 1) c.mallocs with ⟨_ | block, ms⟩
      · rw [hm] at h
        exact absurd h Nat.one_ne_zero
      · rfl
  · rw [if_neg hr] at h
    exact absurd h hr

/-- Two clonings that differ at most in what has crashed. -/
structure Alike (c c' : Cloning) : Prop where
  result : c.result = c'.result
  options : c.options = c'.options
  mallocs : c.mallocs = c'.mallocs

theorem Alike.copy {c c' : Cloning} (h : Alike c c') (field : StringOption) (passed : MqttClientOptions) :
    Alike (c.copy field passed) (c'.copy field passed) := by
  unfold Cloning.copy
  rw [h.result, h.mallocs]
  split
  · split
    · exact h
    · split
      · exact ⟨rfl, h.options, rfl⟩
      · exact ⟨rfl, by rw [h.options], rfl⟩
  · exact h

theorem clone_crashed (passed stored : MqttClientOptions) (ms : Mallocs) (crashed : Bool) :
    (cloneMqttOptions passed ⟨0, stored, ms, crashed⟩).result = (cloneMqttOptions passed ⟨0, stored, ms, false⟩).result := by
  have h : Alike ⟨0, stored, ms, crashed⟩ ⟨0, stored, ms, false⟩ := ⟨rfl, rfl, rfl⟩
  have hall := ((((h.copy clientIdOption passed).copy willTopicOption passed).copy willMessageOption passed).copy
    usernameOption passed).copy passwordOption passed
  have hresult := hall.result
  unfold cloneMqttOptions
  simp only
  split
  · rename_i hr
    rw [if_pos (hresult.symm.trans hr)]
    exact hresult
  · rename_i hr
    rw [if_neg (by rw [← hresult]; exact hr)]
    exact hresult

theorem clone_failed {passed : MqttClientOptions} {c : Cloning} (h : (cloneMqttOptions passed c).result ≠ 0) :
    Blank (cloneMqttOptions passed c).options := by
  unfold cloneMqttOptions at h ⊢
  simp only at h ⊢
  split
  · rename_i hr
    rw [if_pos hr] at h
    exact absurd hr h
  · exact clear_blank _

/-- What a cloning that succeeds stores, whatever was stored before. -/
theorem stored_options {passed stored : MqttClientOptions} {ms : Mallocs} {crashed : Bool}
    (h : (cloneMqttOptions passed ⟨0, stored, ms, crashed⟩).result = 0) :
    (cloneMqttOptions passed ⟨0, stored, ms, crashed⟩).options = overlay passed stored := by
  unfold cloneMqttOptions at h ⊢
  simp only at h ⊢
  obtain ⟨c1, hc1⟩ : ∃ c1, c1 = Cloning.copy clientIdOption passed ⟨0, stored, ms, crashed⟩ := ⟨_, rfl⟩
  obtain ⟨c2, hc2⟩ : ∃ c2, c2 = c1.copy willTopicOption passed := ⟨_, rfl⟩
  obtain ⟨c3, hc3⟩ : ∃ c3, c3 = c2.copy willMessageOption passed := ⟨_, rfl⟩
  obtain ⟨c4, hc4⟩ : ∃ c4, c4 = c3.copy usernameOption passed := ⟨_, rfl⟩
  obtain ⟨c5, hc5⟩ : ∃ c5, c5 = c4.copy passwordOption passed := ⟨_, rfl⟩
  rw [← hc1, ← hc2, ← hc3, ← hc4, ← hc5] at h ⊢
  have h5 : c5.result = 0 := by
    by_cases h5 : c5.result = 0
    · exact h5
    · rw [if_neg h5] at h
      exact h
  rw [if_pos h5]
  obtain ⟨h4, o5⟩ := copy_succeeded (hc5 ▸ h5)
  obtain ⟨h3, o4⟩ := copy_succeeded (hc4 ▸ h4)
  obtain ⟨h2, o3⟩ := copy_succeeded (hc3 ▸ h3)
  obtain ⟨h1, o2⟩ := copy_succeeded (hc2 ▸ h2)
  obtain ⟨-, o1⟩ := copy_succeeded (hc1 ▸ h1)
  rw [← hc1] at o1
  rw [← hc2, o1] at o2
  rw [← hc3, o2] at o3
  rw [← hc4, o3] at o4
  rw [← hc5, o4] at o5
  simp only [o5]
  rfl

theorem or_eq_left {α : Type} {x y : Option α} : x.or y = x ↔ (x = none → y = none) := by
  cases x <;> simp

/-- The options stored are the ones passed exactly when no older string shows through. -/
theorem overlay_eq_iff {passed stored : MqttClientOptions} : overlay passed stored = passed ↔ NullsIn passed stored := by
  have hfields : overlay passed stored = passed ↔ passed.clientId.or stored.clientId = passed.clientId ∧
      passed.willTopic.or stored.willTopic = passed.willTopic ∧
      passed.willMessage.or stored.willMessage = passed.willMessage ∧
      passed.username.or stored.username = passed.username ∧ passed.password.or stored.password = passed.password := by
    cases passed
    simp only [overlay, MqttClientOptions.mk.injEq, and_true]
  rw [hfields]
  simp only [or_eq_left, NullsIn, stringOptions, List.mem_cons, List.not_mem_nil, or_false, forall_eq_or_imp, forall_eq]
  rfl

/-! ## Runs -/

def Note.passed : Note → Option MqttClientOptions
  | .called (.api (.connect _ mqttOptions)) _ => some mqttOptions
  | _ => none

def lastOptions (notes : List Note) : MqttClientOptions := ((notes.filterMap Note.passed).getLast?).getD {}

/-- The transport is opened with the options of the connect call, and the CONNECT that the open then
    leads to is the one of these options. -/
def OwnOptions (before : List Note) : Note → Prop
  | .asked (.openIo _) m => m.client.mqttOptions = lastOptions before
  | .called (.transport (.openComplete .ok)) m => (mqttCodecConnect m.client.mqttOptions m.mallocs).1.isSome →
    (mqttCodecConnect (lastOptions before) m.mallocs).1 = (mqttCodecConnect m.client.mqttOptions m.mallocs).1
  | _ => True

instance (before : List Note) : DecidablePred (OwnOptions before) := fun n => by
  rcases n with ⟨c | c, m⟩ | ⟨x, m⟩ | ⟨x, result, sent, after⟩
  · rcases c with (_ | _ | _) | _
    · exact inferInstanceAs (Decidable ((mqttCodecConnect m.client.mqttOptions m.mallocs).1.isSome →
        (mqttCodecConnect (lastOptions before) m.mallocs).1 = (mqttCodecConnect m.client.mqttOptions m.mallocs).1))
    all_goals exact inferInstanceAs (Decidable True)
  · exact inferInstanceAs (Decidable True)
  · rcases x with _ | _
    · exact inferInstanceAs (Decidable (m.client.mqttOptions = lastOptions before))
    all_goals exact inferInstanceAs (Decidable True)
  · exact inferInstanceAs (Decidable True)

/-- A connect call whose options can be copied does not leave out a string that is stored. -/
def Note.NullsKept : Note → Prop
  | .called (.api (.connect _ mqttOptions)) m =>
    (cloneMqttOptions mqttOptions ⟨0, m.client.mqttOptions, m.mallocs, false⟩).result = 0 →
      NullsIn mqttOptions m.client.mqttOptions
  | _ => True

theorem lastOptions_concat (notes : List Note) (n : Note) :
    lastOptions (notes ++ [n]) = (Note.passed n).getD (lastOptions notes) := by
  simp only [lastOptions, List.filterMap_append]
  cases hn : Note.passed n with
  | none => simp [hn]
  | some o => simp [hn]

/-- No CONNECT is built without a string. -/
theorem connect_blank {o : MqttClientOptions} (h : Blank o) (ms : Mallocs) : (mqttCodecConnect o ms).1 = none := by
  have hnull : ∀ field ∈ stringOptions, optionLen (field.get o) + optionSpace (field.get o) = 0 := by
    intro field hf
    rw [h field hf]
    rfl
  have hlen : connPayloadLen o = 0 := by
    have h1 := hnull clientIdOption (by simp [stringOptions])
    have h2 := hnull willTopicOption (by simp [stringOptions])
    have h3 := hnull willMessageOption (by simp [stringOptions])
    have h4 := hnull usernameOption (by simp [stringOptions])
    have h5 := hnull passwordOption (by simp [stringOptions])
    simp only [clientIdOption, willTopicOption, willMessageOption, usernameOption, passwordOption] at h1 h2 h3 h4 h5
    unfold connPayloadLen
    omega
  have hpayload : ∀ b ms, (constructConnPayload b o ms).1 ≠ 0 := by
    intro b ms hzero
    have he := (constructConnPayload_zero hzero).2
    rw [hlen] at he
    exact absurd he Nat.one_ne_zero
  unfold mqttCodecConnect
  repeat' split
  · rfl
  · rename_i hp
    exact absurd (congrArg Prod.fst hp) (hpayload _ _)
  · rfl
  · rfl

structure Kept (w : Scripted) : Prop where
  own : Throughout OwnOptions w.out.notes
  stored : w.client.mqttOptions = lastOptions w.out.notes ∨ Blank w.client.mqttOptions

def NullsKept (w : Scripted) : Prop := ∀ n ∈ w.out.notes, Note.NullsKept n

structure Follows (w w' : Scripted) : Prop where
  notes : w.out.notes <+: w'.out.notes
  kept : NullsKept w' → Kept w → Kept w'
  conversely : Throughout OwnOptions w'.out.notes → NullsKept w → NullsKept w'

variable {w w' w'' : Scripted}

theorem Follows.earlier (h : Follows w w') (hk : NullsKept w') : NullsKept w := fun n hn => hk n (h.notes.subset hn)

theorem Follows.trans (h : Follows w w') (h' : Follows w' w'') : Follows w w'' where
  notes := h.notes.trans h'.notes
  kept hk hw := h'.kept hk (h.kept (h'.earlier hk) hw)
  conversely ho hk := by
    refine h'.conversely ho (h.conversely ?_ hk)
    obtain ⟨more, hm⟩ := h'.notes
    rw [← hm] at ho
    exact ho.of_append

theorem follows_same (ho : w'.client.mqttOptions = w.client.mqttOptions) (hn : w'.out.notes = w.out.notes) :
    Follows w w' := by
  refine ⟨by rw [hn], ?_, ?_⟩
  · intro _ hw
    exact ⟨by rw [hn]; exact hw.own, by rw [ho, hn]; exact hw.stored⟩
  · intro _ hk
    unfold NullsKept
    rw [hn]
    exact hk

theorem Follows.rfl : Follows w w := follows_same (.refl _) (.refl _)

/-- One more note, which is not of a connect call. -/
theorem note_follows {n : Note} (hp : Note.passed n = none) (hn : Kept w → OwnOptions w.out.notes n) :
    Follows w (writeNote n w) := by
  have hlast : lastOptions (w.out.notes ++ [n]) = lastOptions w.out.notes := by
    rw [lastOptions_concat, hp]
    rfl
  refine ⟨List.prefix_append _ _, ?_, ?_⟩
  · intro _ hw
    refine ⟨throughout_concat.mpr ⟨hw.own, hn hw⟩, ?_⟩
    change w.client.mqttOptions = lastOptions (w.out.notes ++ [n]) ∨ Blank w.client.mqttOptions
    rw [hlast]
    exact hw.stored
  · intro _ hk m hm
    rcases List.mem_append.mp hm with hm | hm
    · exact hk m hm
    · obtain rfl := List.mem_singleton.mp hm
      unfold Note.NullsKept
      split
      · cases hp
      · trivial

theorem cleared_follows (w : Scripted) :
    Follows w { w with client := { w.client with mqttOptions := clearMqttOptions w.client.mqttOptions } } where
  notes := List.prefix_refl _
  kept _ hw := ⟨hw.own, Or.inr (clear_blank _)⟩
  conversely _ hk := hk

def Plain : Exit → Prop
  | .openIo _ => False
  | _ => True

section Client

variable {perform : Entry → Scripted → Scripted} (hp : ∀ c w, Follows w (perform c w))

include hp

theorem follows_script : ScriptRules perform Plain Follows where
  refl _ := Follows.rfl
  trans := Follows.trans
  perform := hp
  asked {x} w hx := note_follows (.refl _) fun _ => by
    cases x with
    | openIo h => exact hx.elim
    | _ => trivial
  answered _ _ _ _ := note_follows (.refl _) fun _ => trivial
  nextReaction _ _ := follows_same (.refl _) (.refl _)
  nextCalls _ := follows_same (.refl _) (.refl _)

theorem follows_frame : FrameRules perform Plain Follows where
  toScriptRules := follows_script hp
  ordinary {x} hx := by
    cases x with
    | openIo h => exact hx
    | _ => trivial
  framed h := follows_same h.mqttOptions (by rw [h.out])
  disconnected w _ := by
    unfold App.callDisconnected
    split
    · exact Follows.rfl
    · rename_i callback _
      have hlog : Follows w (w.log (.disconnected callback)) := follows_same (.refl _) (.refl _)
      exact hlog.trans ((follows_script hp).tellApplication (x := .disconnected callback) trivial _)

omit hp in
/-- The call that has just arrived is the last connect call. -/
theorem connect_arrived (h : XioHandle) (mqttOptions : MqttClientOptions) (w : Scripted) :
    arrive (.api (.connect h mqttOptions)) w = writeNote (.called (.api (.connect h mqttOptions)) (moment w)) w := by
  have htakes : takes (.api (.connect h mqttOptions)) w.client = false := by simp [takes]
  simp only [arrive, writeNote, htakes]
  rfl

omit hp in
/-- Without memory for a copy, the strings are cleared. -/
theorem takeOptions_failed {h : XioHandle} {mqttOptions : MqttClientOptions} {w : Scripted}
    (hr : (takeOptions h mqttOptions (arrive (.api (.connect h mqttOptions)) w)).1 ≠ 0) :
    Follows w (takeOptions h mqttOptions (arrive (.api (.connect h mqttOptions)) w)).2 := by
  rw [connect_arrived] at hr ⊢
  refine ⟨List.prefix_append _ _, ?_, ?_⟩
  · intro _ hw
    exact ⟨throughout_concat.mpr ⟨hw.own, trivial⟩, Or.inr (clone_failed hr)⟩
  · intro _ hk m hm
    rcases List.mem_append.mp hm with hm | hm
    · exact hk m hm
    · obtain rfl := List.mem_singleton.mp hm
      intro hclone
      rw [← clone_crashed _ _ _ w.crashed] at hclone
      exact absurd hclone hr

omit hp in
/-- The open is asked for with what the connect call has stored. -/
theorem asked_follows {h : XioHandle} {mqttOptions : MqttClientOptions} {w v : Scripted}
    (hv : takeOptions h mqttOptions (arrive (.api (.connect h mqttOptions)) w) = (0, v)) :
    Follows w (writeNote (.asked (.openIo h) (moment (nextReaction (.openIo h) v).2)) (nextReaction (.openIo h) v).2) := by
  rw [connect_arrived] at hv
  have hr : (cloneMqttOptions mqttOptions ⟨0, w.client.mqttOptions, w.mallocs, w.crashed⟩).result = 0 :=
    congrArg Prod.fst hv
  have hsnd : (takeOptions h mqttOptions (writeNote (.called (.api (.connect h mqttOptions)) (moment w)) w)).2 = v :=
    congrArg Prod.snd hv
  have hstored : v.client.mqttOptions = overlay mqttOptions w.client.mqttOptions := by
    rw [← stored_options hr, ← hsnd]
    exact .refl _
  have hout : v.out = (writeNote (.called (.api (.connect h mqttOptions)) (moment w)) w).out := by
    rw [← hsnd]
    exact .refl _
  have hnotes : (writeNote (.asked (.openIo h) (moment (nextReaction (.openIo h) v).2)) (nextReaction (.openIo h) v).2).out.notes =
      w.out.notes ++ [.called (.api (.connect h mqttOptions)) (moment w)] ++
        [.asked (.openIo h) (moment (nextReaction (.openIo h) v).2)] := by
    simp only [writeNote, nextReaction, hout]
  have hcalled : lastOptions (w.out.notes ++ [.called (.api (.connect h mqttOptions)) (moment w)]) = mqttOptions := by
    rw [lastOptions_concat]
    exact .refl _
  have hiff : overlay mqttOptions w.client.mqttOptions = mqttOptions ↔
      Note.NullsKept (.called (.api (.connect h mqttOptions)) (moment w)) := by
    rw [overlay_eq_iff]
    refine ⟨fun hn _ => hn, fun hn => hn ?_⟩
    rw [← clone_crashed _ _ _ w.crashed]
    exact hr
  refine ⟨?_, ?_, ?_⟩
  · rw [hnotes, List.append_assoc]
    exact List.prefix_append _ _
  · intro hk hw
    unfold NullsKept at hk
    rw [hnotes] at hk
    have heq : v.client.mqttOptions = mqttOptions := hstored.trans (hiff.mpr (hk _ (by simp)))
    refine ⟨?_, Or.inl ?_⟩
    · rw [hnotes]
      exact throughout_concat.mpr ⟨throughout_concat.mpr ⟨hw.own, trivial⟩, heq.trans hcalled.symm⟩
    · rw [hnotes, lastOptions_concat, hcalled]
      exact heq
  · intro ho hk
    unfold NullsKept
    rw [hnotes] at ho ⊢
    have hopen : v.client.mqttOptions = lastOptions (w.out.notes ++ [.called (.api (.connect h mqttOptions)) (moment w)]) :=
      (throughout_concat.mp ho).2
    intro m hm
    rcases List.mem_append.mp hm with hm | hm
    · rcases List.mem_append.mp hm with hm | hm
      · exact hk m hm
      · obtain rfl := List.mem_singleton.mp hm
        exact hiff.mp (hstored.symm.trans (hopen.trans hcalled))
    · obtain rfl := List.mem_singleton.mp hm
      trivial

theorem mqttClientConnect_follows (h : XioHandle) (mqttOptions : MqttClientOptions) (w : Scripted) :
    Follows w (mqttClientConnect (scriptXio perform) (some h) mqttOptions (arrive (.api (.connect h mqttOptions)) w)).2 := by
  refine (follows_frame hp).mqttClientConnect h mqttOptions _ takeOptions_failed (fun hr => ?_) cleared_follows
  exact (follows_script hp).askTransport_of (asked_follows (Prod.ext hr (.refl _))) fun _ _ _ =>
    note_follows (.refl _) fun _ => trivial

omit hp in
/-- A call that is no connect call. -/
theorem arrive_follows {c : Entry} (hc : ∀ h mqttOptions, c ≠ .api (.connect h mqttOptions)) (w : Scripted) :
    Follows w (arrive c w) := by
  have hpassed : Note.passed (.called c (moment w)) = none := by
    cases c with
    | transport c => exact .refl _
    | api c =>
      cases c with
      | connect h mqttOptions => exact absurd (.refl _) (hc h mqttOptions)
      | _ => exact .refl _
  have hown : Kept w → OwnOptions w.out.notes (.called c (moment w)) := by
    intro hw
    unfold OwnOptions
    split
    · rename_i heq
      cases heq
    · rename_i m heq
      injection heq with hc hm
      rw [← hm]
      intro hbuilt
      rcases hw.stored with hs | hb
      · rw [← hs]
        exact .refl _
      · rw [show (moment w).client = w.client from .refl _, connect_blank hb] at hbuilt
        cases hbuilt
    · trivial
  have hnote : Follows w (writeNote (.called c (moment w)) w) := note_follows hpassed hown
  unfold arrive
  simp only
  split
  · exact hnote.trans (follows_same (.refl _) (.refl _))
  · exact hnote

theorem enter_follows (c : Entry) (w : Scripted) :
    Follows w (enter (scriptXio perform) (scriptApp perform) c (arrive c w)) := by
  have hf := follows_frame hp
  by_cases hc : ∀ h mqttOptions, c ≠ .api (.connect h mqttOptions)
  · refine (arrive_follows hc w).trans (hf.enter c _ ?_ ?_ ?_ ?_)
    · intro _ hs
      exact hf.onOpenComplete _ hs (fun _ _ => trivial) (follows_same (.refl _) (.refl _))
    · intro _
      exact hf.onConnectionClosed _ (follows_same (.refl _) (.refl _))
    · intro h mqttOptions hconnect
      exact absurd hconnect (hc h mqttOptions)
    · intro callback _
      exact hf.steps.mqttClientDisconnect callback _ (fun v _ hi ho => follows_same ho (by rw [hi.out])) cleared_follows
        fun v _ hv => hv.trans (follows_same (.refl _) (.refl _))
  · push Not at hc
    obtain ⟨h, mqttOptions, rfl⟩ := hc
    exact mqttClientConnect_follows hp h mqttOptions w

end Client

theorem perform_follows (n : Nat) (c : Entry) (w : Scripted) : Follows w (perform n c w) := by
  induction n generalizing c w with
  | zero => exact Follows.rfl
  | succ n ih => exact enter_follows ih c w

theorem options_run (n : Nat) (calls : List Entry) (msgRecv opCallback onErrorCallBack : Bool) (mallocs : Mallocs)
    (ticks : List (Option UInt32)) (transport : List Reaction) (application : List (List ApiCall)) :
    Throughout OwnOptions (performAll n calls
        (scripted (.init msgRecv opCallback onErrorCallBack) mallocs ticks transport application)).out.notes ↔
      ∀ nt ∈ (performAll n calls
        (scripted (.init msgRecv opCallback onErrorCallBack) mallocs ticks transport application)).out.notes,
        Note.NullsKept nt := by
  obtain ⟨w, hw⟩ : ∃ w, w = scripted (.init msgRecv opCallback onErrorCallBack) mallocs ticks transport application :=
    ⟨_, .refl _⟩
  have hnotes : w.out.notes = [] := by rw [hw]; exact .refl _
  have hstart : Kept w := by
    rw [hw]
    exact ⟨throughout_nil, Or.inl (.refl _)⟩
  have hrun : Follows w (performAll n calls w) :=
    performAll_of (fun _ => Follows.rfl) Follows.trans (perform_follows n) calls w
  rw [← hw]
  refine ⟨fun ho => hrun.conversely ho ?_, fun hk => (hrun.kept hk hstart).own⟩
  intro nt hnt
  rw [hnotes] at hnt
  cases hnt

def withUsername : MqttClientOptions := { clientId := some (.ofBlock [0x78]), username := some (.ofBlock [0x75]) }

def withoutUsername : MqttClientOptions := { clientId := some (.ofBlock [0x78]) }

/-- The first connection is lost, and the client is connected again without a username. -/
def connectedTwice : Scripted :=
  performAll 4 [.api (.connect 0 withUsername), .transport .ioError, .api (.connect 1 withoutUsername)]
    (scripted (.init true true true) [] []
      [⟨[.openComplete .ok], 0⟩, ⟨[], 0⟩, ⟨[.closeComplete], 0⟩, ⟨[], 0⟩, ⟨[.openComplete .ok], 0⟩] [])

theorem username_survives :
    connectedTwice.client.mqttOptions = withUsername ∧ lastOptions connectedTwice.out.notes = withoutUsername ∧
      ¬ Throughout OwnOptions connectedTwice.out.notes := by
  decide +kernel

end UMqtt.Client.Options
