import Vumi2.Smpp.WireLimits

/-!
# The reference numbers of split messages

`submit_csm_udh_message` and `submit_csm_sar_message` draw a number from the sequencer and reduce it
to the size of the field: modulo `0xFF` for the octet of a header, and modulo a configured rollover,
`0x10000` by default, for `sar_msg_ref_num`. The numbers go from `0x7FFFFFFF` back to 1.

Two references made of draws that are `k` apart differ in their residues by `k`, or across the wrap
by `k - 0x7FFFFFFF`. This is `k + 1` modulo `0x10000`, so SAR references stay apart; but it is
`k - 127` modulo `0xFF`, so header references meet there, when they are 127 draws apart.
-/

namespace Vumi2.Smpp

open Effect Eff Text

/-! ## Draws -/

/-- The state of a sequencer after `k` draws. -/
def InMemorySequencer.draws (s : InMemorySequencer) : ℕ → InMemorySequencer
  | 0 => s
  | k + 1 => ⟨(s.draws k).next⟩

/-- The number that is drawn after `k` draws. -/
theorem InMemorySequencer.next_draws (s : InMemorySequencer) (k : ℕ) :
    (s.draws k).next = (s.sequence_number + k) % 0x7FFFFFFF + 1 := by
  induction k with
  | zero => rfl
  | succ k ih =>
    calc (s.draws (k + 1)).next = (s.draws k).next % 0x7FFFFFFF + 1 := rfl
      _ = ((s.sequence_number + k) % 0x7FFFFFFF + 1) % 0x7FFFFFFF + 1 := by rw [ih]
      _ = (s.sequence_number + (k + 1)) % 0x7FFFFFFF + 1 := by
        rw [Nat.mod_add_mod, Nat.add_assoc]

/-- Between two draws that are `k` apart, the numbers go up by `k` or wrap. -/
theorem InMemorySequencer.next_draws_cases {s : InMemorySequencer} {k : ℕ} (hk : k < 0x7FFFFFFF) :
    (s.draws k).next = s.next + k ∧ s.next + k ≤ 0x7FFFFFFF ∨
      (s.draws k).next + 0x7FFFFFFF = s.next + k ∧ 0x7FFFFFFF < s.next + k := by
  rw [next_draws, next]
  omega

/-- Header references are equal only across the wrap, 127 draws apart. -/
theorem udh_reference_eq_iff {s : InMemorySequencer} {k : ℕ} (hpos : 0 < k) (hlt : k < 255) :
    s.next % 0xFF = (s.draws k).next % 0xFF ↔ k = 127 ∧ 0x7FFFFFFF < s.next + 127 := by
  -- `0x7FFFFFFF` is 127 modulo `0xFF`.
  rcases s.next_draws_cases (show k < 0x7FFFFFFF by omega) with ⟨hnext, hle⟩ | ⟨hnext, hgt⟩
  · omega
  · omega

/-- SAR references differ, up to the wrap and across it. -/
theorem sar_reference_ne {s : InMemorySequencer} {k : ℕ} (hpos : 0 < k) (hlt : k < 0xFFFF) :
    s.next % 0x10000 ≠ (s.draws k).next % 0x10000 := by
  -- `0x7FFFFFFF` is -1 modulo `0x10000`.
  rcases s.next_draws_cases (show k < 0x7FFFFFFF by omega) with ⟨hnext, hle⟩ | ⟨hnext, hgt⟩
  · omega
  · omega

/-! ## Messages -/

/-- The reference number in the header of a segment. -/
def SubmitSM.headerReference (pdu : SubmitSM) : Option UInt8 :=
  pdu.short_message.bind fun b => b[3]?

namespace SubmitShortMessageProcessor

variable (self : SubmitShortMessageProcessor)

/-- `submit_csm_udh_message` or `submit_csm_sar_message`, called when the sequencer is in the state
`s`, has returned the PDU among others. -/
def SentFrom (how : Splitting) (s : InMemorySequencer) (pdu : SubmitSM) : Prop :=
  ∃ (from_addr to_addr : Str) (message : Bytes) (env : ℕ → Reading) (pdus : List SubmitSM),
    ((self.submitSplit how from_addr to_addr message).run env s).result = .ok pdus ∧ pdu ∈ pdus

variable {self}

/-- A message without octets has no segments. -/
theorem submitSplit_nil {how : Splitting} {from_addr to_addr : Str} {message : Bytes}
    (hnil : self.segments message = []) {env : ℕ → Reading} {s : InMemorySequencer}
    {pdus : List SubmitSM}
    (h : ((self.submitSplit how from_addr to_addr message).run env s).result = .ok pdus) :
    pdus = [] := by
  have hsplit : splitMessage message self.getSplitMsgLength = [] := hnil
  cases how with
  | udh =>
    rw [submitSplit, submitCsmUdhMessage,
      run_bind_ok (run_getNextSequenceNumber env s), hsplit] at h
    exact (Except.ok.inj h).symm
  | sar =>
    rw [submitSplit, submitCsmSarMessage, run_bind_ok (run_getNextSequenceNumber env s)] at h
    cases hmod : pyMod s.next self.config.multipart_sar_reference_rollover with
    | error e =>
      rw [hmod] at h
      cases h
    | ok ref_num =>
      rw [hmod, ofExcept_ok, pure_bind, hsplit] at h
      exact (Except.ok.inj h).symm

/-- A PDU that was returned is one of the segments of its message. -/
theorem SentFrom.userData {how : Splitting} {s : InMemorySequencer} {pdu : SubmitSM}
    (h : self.SentFrom how s pdu) :
    ∃ total i segment, pdu.userData = self.segmentData how s.next total i segment := by
  obtain ⟨from_addr, to_addr, message, env, pdus, hpdus, hmem⟩ := h
  by_cases hnil : self.segments message = []
  · rw [submitSplit_nil hnil hpdus] at hmem
    cases hmem
  · obtain ⟨-, hdata⟩ := self.userData_submitSplit hnil hpdus
    have hin : pdu.userData ∈ self.splitData how message s.next := by
      rw [← hdata]
      exact List.mem_map_of_mem hmem
    obtain ⟨⟨segment, i⟩, -, heq⟩ := List.mem_map.1 hin
    exact ⟨_, i, segment, heq.symm⟩

/-- The reference octet of a segment is the number drawn for its message, modulo `0xFF`. -/
theorem SentFrom.headerReference {s : InMemorySequencer} {pdu : SubmitSM}
    (h : self.SentFrom .udh s pdu) : pdu.headerReference = some (UInt8.ofNat (s.next % 0xFF)) := by
  obtain ⟨total, i, segment, hdata⟩ := h.userData
  have hshort : pdu.short_message = some (udh (s.next % 0xFF) total (i + 1) ++ segment) :=
    congrArg UserData.short_message hdata
  rw [SubmitSM.headerReference, hshort]
  rfl

/-- With the default rollover, the reference in the optional parameter is the number drawn for the
message, modulo `0x10000`. -/
theorem SentFrom.sar_msg_ref_num (hroll : self.config.multipart_sar_reference_rollover = 0x10000)
    {s : InMemorySequencer} {pdu : SubmitSM} (h : self.SentFrom .sar s pdu) :
    pdu.sar_msg_ref_num = some ((s.next % 0x10000 : ℕ) : ℤ) := by
  obtain ⟨total, i, segment, hdata⟩ := h.userData
  have href : pdu.sar_msg_ref_num = some (self.refNum .sar s.next) :=
    congrArg UserData.sar_msg_ref_num hdata
  have hmod : (s.next : ℤ).fmod 0x10000 = ((s.next % 0x10000 : ℕ) : ℤ) := by
    rw [Int.fmod_eq_emod_of_nonneg _ (by decide)]
    rfl
  rw [href, refNum, hroll, hmod]

/-- Segments of two header messages have the same reference only across the wrap. -/
theorem headerReference_eq_iff {s : InMemorySequencer} {k : ℕ} (hpos : 0 < k) (hlt : k < 255)
    {p q : SubmitSM} (hp : self.SentFrom .udh s p) (hq : self.SentFrom .udh (s.draws k) q) :
    p.headerReference = q.headerReference ↔ k = 127 ∧ 0x7FFFFFFF < s.next + 127 := by
  have hsmall : ∀ n : ℕ, (UInt8.ofNat (n % 0xFF)).toNat = n % 0xFF := by
    intro n
    exact UInt8.toNat_ofNat_of_lt' (show n % 0xFF < 256 by omega)
  rw [hp.headerReference, hq.headerReference, ← udh_reference_eq_iff hpos hlt]
  constructor
  · intro h
    rw [← hsmall, ← hsmall (s.draws k).next, Option.some.inj h]
  · intro h
    rw [h]

/-- In every state of the sequencer, there is a segment of a message that has been split. -/
theorem exists_sentFrom (s : InMemorySequencer) : ∃ pdu, defaultProcessor.SentFrom .udh s pdu := by
  have hlen : (defaultProcessor.segments (List.replicate 161 0x61)).length = 2 := by
    rw [segments, splitMessage, Chunks.length_chunks, List.length_replicate]
    rfl
  have hcan : defaultProcessor.CanSplit .udh (List.replicate 161 0x61) := by
    show (defaultProcessor.segments (List.replicate 161 0x61)).length ≤ 255
    omega
  obtain ⟨pdus, hpdus, hdata⟩ := defaultProcessor.returns_submitSplit (addressable_longMessage 161)
    hcan (fun _ => ⟨0, [], DateTime.min⟩) s
  have hpos : 0 < pdus.length := by
    have hcount := congrArg List.length hdata
    rw [List.length_map, splitData, List.length_map, List.length_zipIdx, hlen] at hcount
    omega
  exact ⟨pdus[0], _, _, _, _, pdus, hpdus, List.getElem_mem hpos⟩

end SubmitShortMessageProcessor

/-- Two messages have references of their own, the first drawn in the state `s` and the second `k`
draws later, if there are fewer draws between them than there are references; and the one for a
header is an octet. -/
structure ReferencesApart (s : InMemorySequencer) (k : ℕ) : Prop where
  udh : 0 < k → k < 255 → ∀ (self : SubmitShortMessageProcessor) (p q : SubmitSM),
    self.SentFrom .udh s p → self.SentFrom .udh (s.draws k) q →
      p.headerReference ≠ q.headerReference
  sar : 0 < k → k < 0xFFFF → ∀ (self : SubmitShortMessageProcessor) (p q : SubmitSM),
    self.config.multipart_sar_reference_rollover = 0x10000 →
      self.SentFrom .sar s p → self.SentFrom .sar (s.draws k) q →
        p.sar_msg_ref_num ≠ q.sar_msg_ref_num
  fits : octet (s.next % 0xFF) = .ok [UInt8.ofNat (s.next % 0xFF)]

/-- References stay apart, except for those of two headers that are drawn 127 apart across the
wrap. -/
theorem referencesApart_iff {s : InMemorySequencer} (hs : s.sequence_number ≤ 0x7FFFFFFF) (k : ℕ) :
    ReferencesApart s k ↔
      ¬(k = 127 ∧ 0x7FFFFF80 ≤ s.sequence_number ∧ s.sequence_number < 0x7FFFFFFF) := by
  -- The sequencer starts again after `0x7FFFFFFF`, which is 127 modulo the 255 of the references.
  have hwraps : 0x7FFFFFFF < s.next + 127 ↔
      0x7FFFFF80 ≤ s.sequence_number ∧ s.sequence_number < 0x7FFFFFFF := by
    rw [InMemorySequencer.next]
    omega
  rw [← hwraps]
  constructor
  · -- At the wrap, the 127 draws in between bring the same octet back.
    rintro h ⟨rfl, hwrap⟩
    obtain ⟨p, hp⟩ := SubmitShortMessageProcessor.exists_sentFrom s
    obtain ⟨q, hq⟩ := SubmitShortMessageProcessor.exists_sentFrom (s.draws 127)
    have heq : p.headerReference = q.headerReference :=
      (SubmitShortMessageProcessor.headerReference_eq_iff (by decide) (by decide) hp hq).2
        ⟨rfl, hwrap⟩
    exact h.udh (by decide) (by decide) _ p q hp hq heq
  · intro h
    refine ⟨fun hpos hlt self p q hp hq heq => ?_, fun hpos hlt self p q hroll hp hq heq => ?_, ?_⟩
    · exact h ((SubmitShortMessageProcessor.headerReference_eq_iff hpos hlt hp hq).1 heq)
    · rw [hp.sar_msg_ref_num hroll, hq.sar_msg_ref_num hroll] at heq
      exact sar_reference_ne hpos hlt (Int.ofNat_inj.1 (Option.some.inj heq))
    · exact SubmitShortMessageProcessor.octet_of_lt (show s.next % 0xFF < 256 by omega)

/-- A new sequencer is far from the wrap. -/
theorem new_referencesApart : ReferencesApart ⟨0⟩ 127 :=
  (referencesApart_iff (by decide) 127).2 (by decide)

/-- The numbers `0x7FFFFF81` and 1, which are 127 draws apart, both make the reference 1. -/
theorem wrapped_not_referencesApart : ¬ReferencesApart ⟨0x7FFFFF80⟩ 127 := by
  intro h
  obtain ⟨p, hp⟩ := SubmitShortMessageProcessor.exists_sentFrom ⟨0x7FFFFF80⟩
  obtain ⟨q, hq⟩ := SubmitShortMessageProcessor.exists_sentFrom
    (InMemorySequencer.draws ⟨0x7FFFFF80⟩ 127)
  have hnumber : (InMemorySequencer.draws ⟨0x7FFFFF80⟩ 127).next = 1 := by
    rw [InMemorySequencer.next_draws]
    rfl
  refine h.udh (by decide) (by decide) _ p q hp hq ?_
  rw [hp.headerReference, hq.headerReference, hnumber]
  rfl

end Vumi2.Smpp
