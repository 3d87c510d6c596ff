/-
  UMqtt.Io.OwnCert — the client certificate and its key in `tlsio_mbedtls_setoption`.

  Each of the two options stores its pointer, parses what is behind it, and then hands both to
  `mbedtls_ssl_conf_own_cert` if the other pointer is not NULL. The pointer is stored before the
  parse and stays when the parse fails, so "not NULL" is not "parsed": a certificate that parses
  behind a key that did not is configured with it (`malformedKey_configured`). What the stored
  pointer says is the latest call of that option (`settings_own`).

  Proved (`together_iff`): the certificate and the key are configured together, in either order,
  exactly in the sequences where no call parses behind a malformed one of the other option, and
  where two calls that are swapped find the same pointers.
-/

import UMqtt.Lib.History
import UMqtt.Crt.Buffer

namespace UMqtt.Io.OwnCert

open UMqtt.Lib UMqtt.Crt

/-! ## tlsio_mbedtls_setoption -/

inductive OwnOption where
  | x509EccCert
  | x509EccKey
  deriving DecidableEq, Repr

def OwnOption.partner : OwnOption → OwnOption
  | .x509EccCert => .x509EccKey
  | .x509EccKey => .x509EccCert

inductive OptionName where
  | trustedCert
  | own (o : OwnOption)
  deriving DecidableEq, Repr

structure Material where
  pointer : Option Nat
  size : Nat
  deriving DecidableEq, Repr

/-- A call with what the parser answers to it. Both parsers refuse NULL. -/
structure Setting where
  optionName : OptionName
  value : Material
  parses : Bool
  refused : value.pointer = none → parses = false

inductive Conf where
  | caChain
  | ownCert
  deriving DecidableEq, Repr

structure TlsOptions where
  trustedCertificates : Material
  clientCertificates : Material
  clientPrivateKey : Material
  confs : List Conf
  deriving DecidableEq, Repr

def TlsOptions.own (io : TlsOptions) : OwnOption → Material
  | .x509EccCert => io.clientCertificates
  | .x509EccKey => io.clientPrivateKey

def TlsOptions.setOwn (io : TlsOptions) (value : Material) : OwnOption → TlsOptions
  | .x509EccCert => { io with clientCertificates := value }
  | .x509EccKey => { io with clientPrivateKey := value }

def created : TlsOptions := ⟨⟨none, 0⟩, ⟨none, 0⟩, ⟨none, 0⟩, []⟩

def tlsioMbedtlsSetoption (c : Setting) (io : TlsOptions) : Nat × TlsOptions :=
  match c.optionName with
  | .trustedCert =>
    let io := { io with trustedCertificates := c.value }
    if c.parses then (0, { io with confs := io.confs ++ [.caChain] }) else (failure, io)
  | .own o =>
    let io := io.setOwn c.value o
    if c.parses then
      (0, if (io.own o.partner).pointer.isSome then { io with confs := io.confs ++ [.ownCert] } else io)
    else (failure, io)

def settings (cs : List Setting) : TlsOptions := cs.foldl (fun io c => (tlsioMbedtlsSetoption c io).2) created

/-! ## What the calls say -/

def latest (o : OwnOption) (cs : List Setting) : Option Setting := (cs.filter fun c => c.optionName = .own o).getLast?

/-- The latest call of the option stored a pointer that is not NULL. -/
def Held (o : OwnOption) (cs : List Setting) : Prop := ∃ c ∈ latest o cs, c.value.pointer ≠ none

def Parsed (o : OwnOption) (cs : List Setting) : Prop := ∃ c ∈ latest o cs, c.parses = true

def Malformed (o : OwnOption) (cs : List Setting) : Prop := ∃ c ∈ latest o cs, c.value.pointer ≠ none ∧ c.parses = false

def Configured (cs : List Setting) : Prop := Conf.ownCert ∈ (settings cs).confs

structure Together (cs : List Setting) : Prop where
  only : Throughout (fun before c => (settings (before ++ [c])).confs = (settings before).confs ++ [.ownCert] →
    Parsed .x509EccCert (before ++ [c]) ∧ Parsed .x509EccKey (before ++ [c])) cs
  whenever : ∀ before after, cs = before ++ after → Parsed .x509EccCert before → Parsed .x509EccKey before →
    Configured before
  swapped : ∀ before a b after o, cs = before ++ a :: b :: after → a.optionName = .own o →
    b.optionName = .own o.partner → (Configured cs ↔ Configured (before ++ b :: a :: after))

def Gives (before : List Setting) (c : Setting) : Prop :=
  ∃ o, c.optionName = .own o ∧ c.parses = true ∧ Held o.partner before

def Later (before after : List Setting) : Prop := ∃ u c v, after = u ++ c :: v ∧ Gives (before ++ u) c

/-- Where only one of two neighbours parses, the other one leaves the pointer of its option NULL
    or not NULL as it was. -/
def Alike (before : List Setting) (a b : Setting) (o : OwnOption) : Prop :=
  (a.parses = true → b.parses = false → (b.value.pointer ≠ none ↔ Held o.partner before)) ∧
  (b.parses = true → a.parses = false → (a.value.pointer ≠ none ↔ Held o before))

structure Orderly (cs : List Setting) : Prop where
  behind : Throughout (fun before c => ∀ o, c.optionName = .own o → c.parses = true → ¬ Malformed o.partner before) cs
  /-- Unless an earlier or a later call configures them anyway. -/
  alike : ∀ before a b after o, cs = before ++ a :: b :: after → a.optionName = .own o →
    b.optionName = .own o.partner → Later [] before ∨ Alike before a b o ∨ Later (before ++ [a, b]) after

variable {cs before after : List Setting} {a b c : Setting} {o : OwnOption}

@[simp] theorem partner_partner (o : OwnOption) : o.partner.partner = o := by cases o <;> rfl

theorem partner_ne (o : OwnOption) : o.partner ≠ o := by cases o <;> decide

/-! ## The latest call -/

theorem latest_own (h : c.optionName = .own o) : latest o (before ++ [c]) = some c := by
  simp [latest, List.filter_append, h]

theorem latest_other (h : c.optionName ≠ .own o) : latest o (before ++ [c]) = latest o before := by
  simp [latest, List.filter_append, h]

theorem settings_concat (before : List Setting) (c : Setting) :
    settings (before ++ [c]) = (tlsioMbedtlsSetoption c (settings before)).2 := by
  simp [settings]

theorem setOwn_partner (io : TlsOptions) (value : Material) (o : OwnOption) :
    (io.setOwn value o).own o.partner = io.own o.partner := by
  cases o <;> rfl

theorem setOwn_confs (io : TlsOptions) (value : Material) (o : OwnOption) : (io.setOwn value o).confs = io.confs := by
  cases o <;> rfl

theorem confs_own (io : TlsOptions) (confs : List Conf) (o : OwnOption) : { io with confs := confs }.own o = io.own o := by
  cases o <;> rfl

/-- A call stores its own pointer, parsed or not, and no other. -/
theorem setoption_own (c : Setting) (io : TlsOptions) (o : OwnOption) :
    (tlsioMbedtlsSetoption c io).2.own o = if c.optionName = .own o then c.value else io.own o := by
  unfold tlsioMbedtlsSetoption
  split <;> rename_i hn
  · have hne : c.optionName ≠ .own o := by
      rw [hn]
      exact OptionName.noConfusion
    rw [if_neg hne]
    cases o <;> split <;> rfl
  · rename_i o'
    have hstored : (io.setOwn c.value o').own o = if c.optionName = .own o then c.value else io.own o := by
      rw [hn]
      cases o <;> cases o' <;> rfl
    rw [← hstored]
    split
    · dsimp only
      split
      · exact confs_own _ _ o
      · rfl
    · rfl

theorem settings_own (o : OwnOption) (cs : List Setting) :
    (settings cs).own o = ((latest o cs).map (·.value)).getD ⟨none, 0⟩ := by
  induction cs using List.reverseRecOn with
  | nil => cases o <;> rfl
  | append_singleton cs c ih =>
    rw [settings_concat, setoption_own]
    by_cases h : c.optionName = .own o
    · rw [if_pos h, latest_own h]
      rfl
    · rw [if_neg h, latest_other h, ih]

theorem held_iff (o : OwnOption) (cs : List Setting) : Held o cs ↔ ((settings cs).own o).pointer.isSome = true := by
  rw [settings_own, Option.isSome_iff_ne_none]
  unfold Held
  cases latest o cs <;> simp

theorem held_own (h : c.optionName = .own o) : Held o (before ++ [c]) ↔ c.value.pointer ≠ none := by
  simp [Held, latest_own h]

/-! ## Which calls configure -/

theorem gives_iff (h : c.optionName = .own o) : Gives before c ↔ c.parses = true ∧ Held o.partner before := by
  refine ⟨fun hg => ?_, fun hg => ⟨o, h, hg⟩⟩
  obtain ⟨o', ho', hp⟩ := hg
  rw [h] at ho'
  cases ho'
  exact hp

theorem confs_concat (before : List Setting) (c : Setting) :
    (settings (before ++ [c])).confs = (settings before).confs ++ [.ownCert] ↔ Gives before c := by
  rw [settings_concat]
  cases hn : c.optionName with
  | trustedCert =>
    have hno : ¬ Gives before c := by
      intro hg
      obtain ⟨o, ho, -⟩ := hg
      rw [hn] at ho
      cases ho
    simp only [tlsioMbedtlsSetoption, hn, hno, iff_false]
    split <;> simp
  | own o =>
    rw [gives_iff hn, held_iff, ← setOwn_partner (settings before) c.value o]
    simp only [tlsioMbedtlsSetoption, hn]
    by_cases hp : c.parses = true
    · by_cases hs : (((settings before).setOwn c.value o).own o.partner).pointer.isSome = true
      · simp [hp, hs, setOwn_confs]
      · simp [hp, hs, setOwn_confs]
    · simp [hp, setOwn_confs]

theorem configured_concat (before : List Setting) (c : Setting) :
    Configured (before ++ [c]) ↔ Configured before ∨ Gives before c := by
  by_cases hg : Gives before c
  · simp [Configured, (confs_concat before c).mpr hg, hg]
  · simp only [hg, or_false, Configured, settings_concat]
    cases hn : c.optionName with
    | trustedCert => simp only [tlsioMbedtlsSetoption, hn]; split <;> simp
    | own o =>
      rw [gives_iff hn, held_iff, ← setOwn_partner (settings before) c.value o] at hg
      simp only [tlsioMbedtlsSetoption, hn]
      by_cases hp : c.parses = true
      · rw [if_pos hp, if_neg fun hs => hg ⟨hp, hs⟩, setOwn_confs]
      · rw [if_neg hp, setOwn_confs]

theorem configured_append (before after : List Setting) :
    Configured (before ++ after) ↔ Configured before ∨ Later before after := by
  induction after using List.reverseRecOn with
  | nil => simp [Later]
  | append_singleton after c ih =>
    rw [← List.append_assoc, configured_concat, ih, or_assoc]
    refine or_congr_right ⟨fun h => ?_, fun h => ?_⟩
    · rcases h with ⟨u, x, v, hafter, hg⟩ | hg
      · exact ⟨u, x, v ++ [c], by rw [hafter, List.append_assoc, List.cons_append], hg⟩
      · exact ⟨after, c, [], rfl, hg⟩
    · obtain ⟨u, x, v, hafter, hg⟩ := h
      rcases List.eq_nil_or_concat v with rfl | ⟨w, y, rfl⟩
      · obtain ⟨rfl, hx⟩ := List.append_inj' hafter rfl
        right
        cases hx
        exact hg
      · rw [List.concat_eq_append, ← List.cons_append, ← List.append_assoc] at hafter
        obtain ⟨rfl, -⟩ := List.append_inj' hafter rfl
        exact Or.inl ⟨u, x, w, rfl, hg⟩

/-! ## The two orders -/

/-- Neither call says anything about the option of the other one. -/
theorem latest_swap (ha : a.optionName = .own o) (hb : b.optionName = .own o.partner) (before u : List Setting)
    (o' : OwnOption) : latest o' (before ++ [b, a] ++ u) = latest o' (before ++ [a, b] ++ u) := by
  have hpair : [b, a].filter (fun c => c.optionName = .own o') = [a, b].filter fun c => c.optionName = .own o' := by
    by_cases hao : a.optionName = .own o'
    · have hbo : b.optionName ≠ .own o' := by
        rw [ha] at hao
        cases hao
        rw [hb]
        exact fun h => partner_ne o (OptionName.own.inj h)
      simp [hao, hbo]
    · by_cases hbo : b.optionName = .own o'
      · simp [hao, hbo]
      · simp [hao, hbo]
  simp only [latest, List.filter_append, hpair]

theorem later_swap (ha : a.optionName = .own o) (hb : b.optionName = .own o.partner) (before after : List Setting) :
    Later (before ++ [b, a]) after ↔ Later (before ++ [a, b]) after := by
  simp only [Later, Gives, Held, latest_swap ha hb]

theorem parses_pointer (h : c.parses = true) : c.value.pointer ≠ none := by
  intro hnull
  rw [c.refused hnull] at h
  cases h

/-- What two neighbours configure. -/
theorem configured_pair (ha : a.optionName = .own o) (hb : b.optionName = .own o.partner) :
    Configured (before ++ a :: b :: after) ↔ Configured before ∨ (a.parses = true ∧ Held o.partner before ∨
      b.parses = true ∧ a.value.pointer ≠ none) ∨ Later (before ++ [a, b]) after := by
  have hsplit : before ++ a :: b :: after = before ++ [a] ++ [b] ++ after := by simp
  have hpair : before ++ [a] ++ [b] = before ++ [a, b] := by simp
  rw [hsplit, configured_append, configured_concat, configured_concat, gives_iff ha, gives_iff hb, partner_partner,
    held_own ha, hpair, or_assoc, or_assoc, or_assoc]

/-- Swapped, they configure the same just when they are alike. -/
theorem swap_iff (ha : a.optionName = .own o) (hb : b.optionName = .own o.partner) :
    (Configured (before ++ a :: b :: after) ↔ Configured (before ++ b :: a :: after)) ↔
      Configured before ∨ Alike before a b o ∨ Later (before ++ [a, b]) after := by
  have ha' : a.optionName = .own o.partner.partner := by rw [partner_partner, ha]
  rw [configured_pair ha hb, configured_pair hb ha', partner_partner, later_swap ha hb]
  have hpa : a.parses = true → a.value.pointer ≠ none := parses_pointer
  have hpb : b.parses = true → b.value.pointer ≠ none := parses_pointer
  by_cases hc : Configured before
  · simp only [hc, true_or]
  · by_cases hl : Later (before ++ [a, b]) after
    · simp only [hl, or_true]
    · simp only [hc, hl, false_or, or_false, Alike]
      cases hap : a.parses with
      | false => cases hbp : b.parses <;> simp_all
      | true =>
        cases hbp : b.parses with
        | false => simpa using iff_comm
        | true => simp_all

/-! ## Both parsed -/

theorem parsed_own (h : c.optionName = .own o) : Parsed o (before ++ [c]) ↔ c.parses = true := by
  simp [Parsed, latest_own h]

theorem parsed_other (h : c.optionName ≠ .own o) : Parsed o (before ++ [c]) ↔ Parsed o before := by
  simp only [Parsed, latest_other h]

theorem own_partner_ne (h : c.optionName = .own o) : c.optionName ≠ .own o.partner := by
  rw [h]
  exact fun heq => partner_ne o (OptionName.own.inj heq).symm

theorem both_iff (o : OwnOption) (cs : List Setting) :
    Parsed .x509EccCert cs ∧ Parsed .x509EccKey cs ↔ Parsed o cs ∧ Parsed o.partner cs := by
  cases o with
  | x509EccCert => exact Iff.rfl
  | x509EccKey => exact and_comm

theorem parsed_held (h : Parsed o cs) : Held o cs := by
  obtain ⟨c, hc, hp⟩ := h
  exact ⟨c, hc, parses_pointer hp⟩

/-- What is stored and not NULL has parsed or is malformed. -/
theorem held_cases (h : Held o cs) : Parsed o cs ∨ Malformed o cs := by
  obtain ⟨c, hc, hp⟩ := h
  cases hparses : c.parses with
  | true => exact Or.inl ⟨c, hc, hparses⟩
  | false => exact Or.inr ⟨c, hc, hp, hparses⟩

theorem malformed_not (h : Malformed o cs) : ¬ Parsed o cs := by
  intro hp
  obtain ⟨c, hc, -, hf⟩ := h
  obtain ⟨c', hc', ht⟩ := hp
  rw [Option.mem_def] at hc hc'
  obtain rfl : c = c' := Option.some.inj (hc.symm.trans hc')
  rw [hf] at ht
  cases ht

/-- A call configures what has parsed just when it does not parse behind something malformed. -/
theorem only_iff (before : List Setting) (c : Setting) :
    ((settings (before ++ [c])).confs = (settings before).confs ++ [.ownCert] →
      Parsed .x509EccCert (before ++ [c]) ∧ Parsed .x509EccKey (before ++ [c])) ↔
    ∀ o, c.optionName = .own o → c.parses = true → ¬ Malformed o.partner before := by
  rw [confs_concat]
  refine ⟨fun h o ho hp hm => ?_, fun h hg => ?_⟩
  · obtain ⟨x, hx, hpointer, hf⟩ := hm
    have hboth := (both_iff o _).mp (h ⟨o, ho, hp, x, hx, hpointer⟩)
    rw [parsed_other (own_partner_ne ho)] at hboth
    exact malformed_not ⟨x, hx, hpointer, hf⟩ hboth.2
  · obtain ⟨o, ho, hp, hheld⟩ := hg
    rw [both_iff o, parsed_own ho, parsed_other (own_partner_ne ho)]
    rcases held_cases hheld with hpartner | hm
    · exact ⟨hp, hpartner⟩
    · exact absurd hm (h o ho hp)

/-- When both have parsed, the later one of the two calls has configured them. -/
theorem parsed_configured (cs : List Setting) (hc : Parsed .x509EccCert cs) (hk : Parsed .x509EccKey cs) : Configured cs := by
  induction cs using List.reverseRecOn with
  | nil => obtain ⟨c, hc, -⟩ := hc; simp [latest] at hc
  | append_singleton before c ih =>
    rw [configured_concat]
    cases hn : c.optionName with
    | trustedCert =>
      have hne : ∀ o, c.optionName ≠ .own o := fun o => by rw [hn]; exact OptionName.noConfusion
      rw [parsed_other (hne _)] at hc hk
      exact Or.inl (ih hc hk)
    | own o =>
      have hboth := (both_iff o _).mp ⟨hc, hk⟩
      rw [parsed_own hn, parsed_other (own_partner_ne hn)] at hboth
      exact Or.inr ⟨o, hn, hboth.1, parsed_held hboth.2⟩

/-! ## Every sequence -/

theorem later_nil (cs : List Setting) : Later [] cs ↔ Configured cs := by
  have h := configured_append [] cs
  rw [List.nil_append] at h
  have hnone : ¬ Configured [] := by simp [Configured, settings, created]
  rw [h, or_iff_right hnone]

/-- The certificate and the key are configured together or not at all exactly in the orderly
    sequences. -/
theorem together_iff (cs : List Setting) : Together cs ↔ Orderly cs := by
  refine ⟨fun h => ⟨?_, ?_⟩, fun h => ⟨?_, ?_, ?_⟩⟩
  · intro before c after hcs
    exact (only_iff before c).mp (h.only before c after hcs)
  · intro before a b after o hcs ha hb
    rw [later_nil]
    have hswap := h.swapped before a b after o hcs ha hb
    rw [hcs] at hswap
    exact (swap_iff ha hb).mp hswap
  · intro before c after hcs
    exact (only_iff before c).mpr (h.behind before c after hcs)
  · intro before after _ hc hk
    exact parsed_configured before hc hk
  · intro before a b after o hcs ha hb
    have halike := h.alike before a b after o hcs ha hb
    rw [later_nil] at halike
    rw [hcs]
    exact (swap_iff ha hb).mpr halike

def goodCert : Setting := ⟨.own .x509EccCert, ⟨some 1, 1220⟩, true, by decide⟩

def malformedKey : Setting := ⟨.own .x509EccKey, ⟨some 2, 227⟩, false, by decide⟩

/-- A key that did not parse is configured with the certificate that parses behind it; in the
    other order the same two calls configure nothing. -/
theorem malformedKey_configured :
    ¬ Together [malformedKey, goodCert] ∧ Configured [malformedKey, goodCert] ∧
      ¬ Parsed .x509EccKey [malformedKey, goodCert] ∧ ¬ Configured [goodCert, malformedKey] := by
  have hconfigured : Configured [malformedKey, goodCert] := by unfold Configured; decide
  have hparsed : ¬ Parsed .x509EccKey [malformedKey, goodCert] := by simp [Parsed, latest, malformedKey, goodCert]
  refine ⟨fun h => ?_, hconfigured, hparsed, by unfold Configured; decide⟩
  exact hparsed (h.only [malformedKey] goodCert [] rfl (by decide)).2

end UMqtt.Io.OwnCert
