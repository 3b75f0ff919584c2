import Vumi2.Smpp.Segmentation
import Vumi2.Smpp.Sessions

/-!
# Messages that look like parts

A message of its own should come out with its text, and leave the parts of other messages alone
(`KeepsText`). But a part is recognized by the first octets of its user data, whatever the PDU says
of them. So a text is kept exactly when its octets do not begin like the header of a part
(`keepsText_iff`): else the text is stored as a part, or completes a message and drops the others,
or lacks its first characters.
-/

namespace Vumi2.Smpp

open Effect Eff Text Codecs InMemorySmppCache

/-- Octets that begin with `start`, a reference number of `n` octets, the total and the number of a
part. -/
def HeadedBy (start : Bytes) (n : ℕ) (octets : Bytes) : Prop :=
  ∃ (ref : Bytes) (total part : UInt8) (rest : Bytes), ref.length = n ∧ 1 ≤ part.toNat ∧
    part.toNat ≤ total.toNat ∧ octets = start ++ (ref ++ total :: part :: rest)

/-- Octets that begin like the header of a part. -/
def Headed (octets : Bytes) : Prop :=
  HeadedBy [0x05, 0x00, 0x03] 1 octets ∨ HeadedBy [0x06, 0x08, 0x04] 2 octets

namespace ShortMessageProcessor

/-- The slices in which the header is looked for. -/
theorem headedBy_iff {start : Bytes} (hstart : start.length = 3) (n : ℕ) (octets : Bytes) :
    (n + 5 ≤ octets.length ∧ slice octets 0 3 = start ∧
      1 ≤ fromBytesBig (slice octets (n + 3) (n + 4)) ∧
      1 ≤ fromBytesBig (slice octets (n + 4) (n + 5)) ∧
      fromBytesBig (slice octets (n + 4) (n + 5)) ≤ fromBytesBig (slice octets (n + 3) (n + 4))) ↔
    HeadedBy start n octets := by
  -- The total and the number of the part are the two octets after the reference.
  have hslices {ref : Bytes} (href : ref.length = n) (total part : UInt8) (rest : Bytes) :
      slice (start ++ (ref ++ total :: part :: rest)) (n + 3) (n + 4) = [total] ∧
        slice (start ++ (ref ++ total :: part :: rest)) (n + 4) (n + 5) = [part] := by
    have hdrop : (start ++ (ref ++ total :: part :: rest)).drop (n + 3) =
        total :: part :: rest := by
      rw [← List.append_assoc]
      exact List.drop_left' (by rw [List.length_append]; omega)
    constructor
    · rw [slice, hdrop, Nat.add_sub_add_left]
      rfl
    · rw [slice, Nat.add_sub_add_left, ← List.drop_drop (i := 1) (j := n + 3), hdrop]
      rfl
  constructor
  · rintro ⟨hlength, hslice, _, hpart, hle⟩
    have hdrop : 2 ≤ (octets.drop (n + 3)).length := by
      rw [List.length_drop]
      omega
    match hrest : octets.drop (n + 3), hdrop with
    | total :: part :: rest, _ =>
      have href : ((octets.drop 3).take n).length = n := by
        rw [List.length_take, List.length_drop]
        omega
      have hoctets : octets = start ++ ((octets.drop 3).take n ++ total :: part :: rest) := by
        rw [← hrest, Nat.add_comm n 3, ← List.drop_drop, List.take_append_drop, ← hslice, slice,
          List.drop_zero, List.take_append_drop]
      rw [hoctets] at hpart hle
      obtain ⟨htotal', hpart'⟩ := hslices href total part rest
      rw [htotal', hpart', fromBytesBig_singleton, fromBytesBig_singleton] at hle
      rw [hpart', fromBytesBig_singleton] at hpart
      exact ⟨_, total, part, rest, href, hpart, hle, hoctets⟩
  · rintro ⟨ref, total, part, rest, href, hpart, hle, rfl⟩
    obtain ⟨htotal', hpart'⟩ := hslices href total part rest
    rw [htotal', hpart', fromBytesBig_singleton, fromBytesBig_singleton]
    refine ⟨by simp; omega, ?_, Nat.le_trans hpart hle, hpart, hle⟩
    rw [slice, List.drop_zero, Nat.sub_zero, ← hstart, List.take_left]

instance (octets : Bytes) : Decidable (HeadedBy [0x05, 0x00, 0x03] 1 octets) :=
  decidable_of_iff _ (headedBy_iff rfl 1 octets)

instance (octets : Bytes) : Decidable (HeadedBy [0x06, 0x08, 0x04] 2 octets) :=
  decidable_of_iff _ (headedBy_iff rfl 2 octets)

instance (octets : Bytes) : Decidable (Headed octets) := inferInstanceAs (Decidable (_ ∨ _))

/-- What follows the header of a part, or all of the octets. -/
def unheaded (octets : Bytes) : Bytes :=
  if HeadedBy [0x05, 0x00, 0x03] 1 octets then octets.drop 6
  else if HeadedBy [0x06, 0x08, 0x04] 2 octets then octets.drop 7
  else octets

/-- Octets without a header are left as they are. -/
theorem unheaded_of_not_headed {octets : Bytes} (h : ¬ Headed octets) :
    unheaded octets = octets := by
  obtain ⟨h1, h2⟩ := not_or.1 h
  rw [unheaded, if_neg h1, if_neg h2]

/-- Octets lose their header. -/
theorem length_unheaded_lt {octets : Bytes} (h : Headed octets) :
    (unheaded octets).length < octets.length := by
  rw [unheaded]
  split_ifs with h1 h2
  · obtain ⟨ref, total, part, rest, _, _, _, rfl⟩ := h1
    simp only [List.length_drop, List.length_append, List.length_cons]
    omega
  · obtain ⟨ref, total, part, rest, _, _, _, rfl⟩ := h2
    simp only [List.length_drop, List.length_append, List.length_cons]
    omega
  · exact absurd h (not_or.2 ⟨h1, h2⟩)

/-- Without the fields of a part, a PDU is a part exactly when its octets begin like one. -/
theorem extractMultipart_octets {pdu : DeliverSM} {octets : Bytes}
    (hmessage : pdu.short_message = some octets)
    (hsar : pdu.sar_msg_ref_num = none ∨ pdu.sar_total_segments = none ∨
      pdu.sar_segment_seqnum = none) :
    ¬ Headed octets ∧ extractMultipart pdu = none ∨
      Headed octets ∧ ∃ ref_num tot_num part_num,
        extractMultipart pdu = some (ref_num, tot_num, part_num, some (unheaded octets)) := by
  -- The tests of the source are the two forms of a header: a reference of one octet, or of two.
  have hcsm : (6 ≤ octets.length ∧ slice octets 0 3 = [0x05, 0x00, 0x03] ∧
      1 ≤ fromBytesBig (slice octets 4 5) ∧ 1 ≤ fromBytesBig (slice octets 5 6) ∧
      fromBytesBig (slice octets 5 6) ≤ fromBytesBig (slice octets 4 5)) ↔
        HeadedBy [0x05, 0x00, 0x03] 1 octets := headedBy_iff rfl 1 octets
  have hcsm16 : (7 ≤ octets.length ∧ slice octets 0 3 = [0x06, 0x08, 0x04] ∧
      1 ≤ fromBytesBig (slice octets 5 6) ∧ 1 ≤ fromBytesBig (slice octets 6 7) ∧
      fromBytesBig (slice octets 6 7) ≤ fromBytesBig (slice octets 5 6)) ↔
        HeadedBy [0x06, 0x08, 0x04] 2 octets := headedBy_iff rfl 2 octets
  rw [extractMultipart]
  -- The SAR fields are not all there, so the octets decide.
  split
  case h_1 ref_num tot_num part_num href htotal hpart =>
    rw [href, htotal, hpart] at hsar
    simp at hsar
  case h_2 =>
    rw [hmessage]
    dsimp only
    rw [unheaded]
    by_cases h : HeadedBy [0x05, 0x00, 0x03] 1 octets
    · rw [if_pos (hcsm.2 h), if_pos h]
      exact .inr ⟨.inl h, _, _, _, rfl⟩
    · rw [if_neg (mt hcsm.1 h), if_neg h]
      by_cases h' : HeadedBy [0x06, 0x08, 0x04] 2 octets
      · rw [if_pos (hcsm16.2 h'), if_pos h']
        exact .inr ⟨.inr h', _, _, _, rfl⟩
      · rw [if_neg (mt hcsm16.1 h')]
        exact .inl ⟨not_or.2 ⟨h, h'⟩, rfl⟩

/-- A PDU of its own, with a text in its short message that a codec of the default alphabet or of
Latin-1 encodes and decodes back. -/
structure CarriesText (P : ShortMessageProcessor) (pdu : DeliverSM) (text : Str)
    (octets : Bytes) : Prop where
  short_message : pdu.short_message = some octets
  message_payload : pdu.message_payload = none
  sar_msg_ref_num : pdu.sar_msg_ref_num = none
  sar_total_segments : pdu.sar_total_segments = none
  sar_segment_seqnum : pdu.sar_segment_seqnum = none
  codec : ∃ codec, (codec = gsm0338 ∨ codec = charmapCodec latin1) ∧
    P.codecFor pdu.data_coding = .ok codec ∧ codec.encode text = .ok octets ∧
      codec.decode octets = .ok text

/-- A PDU becomes a message with the text, and leaves the parts of other messages alone. -/
def KeepsText (P : ShortMessageProcessor) (pdu : DeliverSM) (text : Str) (env : ℕ → Reading)
    (c : InMemorySmppCache) : Prop :=
  (∃ msg, ((P.handleDeliverSm pdu).run env c).result = .ok (some msg) ∧
    msg.content = .string text) ∧
    ((P.handleDeliverSm pdu).run env c).state.multipart = c.multipart

/-- Octets that decode to a text are no fewer than those that it is encoded to. -/
theorem length_encode_le {codec : Codec} (hcodec : codec = gsm0338 ∨ codec = charmapCodec latin1)
    {text : Str} {octets rest : Bytes} (hencode : codec.encode text = .ok octets)
    (hdecode : codec.decode rest = .ok text) : octets.length ≤ rest.length := by
  rcases hcodec with rfl | rfl
  · have hwords := (gsm0338Encode_eq_ok hencode).1
    rw [hwords]
    exact length_flatMap_gsm0338Word_le hdecode
  · -- Both sides have an octet for each character.
    have hoctets := latin1.decode_encode (encoded_eq_ok_iff.1 hencode)
    have hrest := decoded_eq_ok_iff.1 hdecode
    rw [latin1_decode, Option.some.injEq] at hoctets hrest
    have hlength := congrArg List.length (hoctets.trans hrest.symm)
    simp only [List.length_map] at hlength
    omega

variable {P : ShortMessageProcessor} {pdu : DeliverSM} {text : Str} {octets : Bytes}

/-- The text of such a PDU is the text it carries. -/
theorem CarriesText.getText (h : CarriesText P pdu text octets) : P.getText pdu = .ok text := by
  obtain ⟨codec, _, hcodec, _, hdecode⟩ := h.codec
  rw [ShortMessageProcessor.getText, h.message_payload, h.short_message]
  dsimp only
  rw [decodeText, hcodec, ok_bind]
  exact hdecode

/-- A part that is stored alone. -/
theorem joined_stored_of_absent {c : InMemorySmppCache} {ref_num : ℤ} {tot_num : ℕ}
    (h : c.multipart.get? (ref_num, tot_num) = none) (part_num : ℕ) (content : Str) :
    joined (c.stored ref_num tot_num part_num content) = content := by
  rw [stored, h, joined]
  exact List.append_nil content

/-- A text that is taken for a part is not kept. -/
theorem CarriesText.not_keepsText (h : CarriesText P pdu text octets) {ref_num : ℤ}
    {tot_num part_num : ℕ} {rest : Bytes}
    (hextract : extractMultipart pdu = some (ref_num, tot_num, part_num, some rest))
    (hrest : rest.length < octets.length) (env : ℕ → Reading) (c : InMemorySmppCache) :
    ¬ KeepsText P pdu text env c := by
  obtain ⟨codec, hkind, hcodec, hencode, _⟩ := h.codec
  rintro ⟨⟨msg, hmsg, hcontent⟩, hcache⟩
  have hdecodeText : P.decodeText (some rest) pdu.data_coding = codec.decode rest := by
    rw [decodeText, hcodec, ok_bind]
  cases hpart : codec.decode rest with
  | error e =>
    rw [hpart] at hdecodeText
    obtain ⟨e', hrun⟩ := P.run_handleDeliverSm_undecodable hextract hdecodeText env c
    rw [hrun] at hmsg
    cases hmsg
  | ok part =>
    rw [hpart] at hdecodeText
    by_cases hlast : (c.stored ref_num tot_num part_num part).length = tot_num
    · by_cases haddr : HasAddresses pdu
      · obtain ⟨to_addr, from_addr, haddr⟩ := haddr
        rw [P.run_handleDeliverSm_last hextract hdecodeText haddr env hlast] at hmsg hcache
        -- If the parts of other messages are as before, then there were none with this one.
        have habsent : c.multipart.get? (ref_num, tot_num) = none := by
          rw [← show c.multipart.erase (ref_num, tot_num) = c.multipart from hcache]
          exact Dict.get?_erase_self _ _
        obtain rfl := Option.some.inj (Except.ok.inj hmsg)
        have hpart' : part = text := by
          rw [← joined_stored_of_absent habsent part_num part]
          exact Json.string.inj hcontent
        rw [hpart'] at hpart
        exact Nat.not_le.2 hrest (length_encode_le hkind hencode hpart)
      · obtain ⟨e, hrun⟩ := P.run_handleDeliverSm_unaddressed hextract hdecodeText haddr env hlast
        rw [hrun] at hmsg
        cases hmsg
    · rw [P.run_handleDeliverSm_more hextract hdecodeText env hlast] at hmsg
      cases hmsg

/-- A text is kept exactly when its octets do not begin like the header of a part, and the addresses
of the PDU can be read. -/
theorem keepsText_iff (h : CarriesText P pdu text octets) (env : ℕ → Reading)
    (c : InMemorySmppCache) : KeepsText P pdu text env c ↔ HasAddresses pdu ∧ ¬ Headed octets := by
  rcases extractMultipart_octets h.short_message (.inl h.sar_msg_ref_num) with
    ⟨hheaded, hextract⟩ | ⟨hheaded, ref_num, tot_num, part_num, hextract⟩
  · have hrun := P.run_handleDeliverSm_single hextract env c
    rw [h.getText, fromCoroutine_ok] at hrun
    by_cases haddr : HasAddresses pdu
    · obtain ⟨to_addr, from_addr, haddr⟩ := haddr
      rw [run_message haddr] at hrun
      exact iff_of_true ⟨⟨_, by rw [hrun]; rfl, rfl⟩, by rw [hrun]⟩ ⟨⟨_, _, haddr⟩, hheaded⟩
    · obtain ⟨e, hmessage⟩ : ∃ e, (message pdu (.ok text)).run env c = ⟨.error e, 0, c⟩ :=
        run_message_error (fun hboth => haddr hboth.1) env c
      rw [hmessage] at hrun
      refine iff_of_false ?_ fun hboth => haddr hboth.1
      rintro ⟨⟨msg, hmsg, _⟩, _⟩
      rw [hrun] at hmsg
      cases hmsg
  · exact iff_of_false (h.not_keepsText hextract (length_unheaded_lt hheaded) env c)
      fun hboth => hboth.2 hheaded

/-- A PDU of its own in the default alphabet. -/
def ownPdu (octets : Bytes) : DeliverSM where
  seqNum := 1
  source_addr := some [0x31]
  destination_addr := some [0x32]
  esm_class := .DEFAULT
  data_coding := .default .SMSC_DEFAULT_ALPHABET
  short_message := some octets
  message_payload := none
  sar_msg_ref_num := none
  sar_total_segments := none
  sar_segment_seqnum := none
  receipted_message_id := none
  message_state := none

/-- The processor's own PDU carries its text. -/
theorem carriesText_ownPdu {text : Str} {octets : Bytes}
    (hencode : gsm0338.encode text = .ok octets) (hdecode : gsm0338.decode octets = .ok text) :
    CarriesText .default (ownPdu octets) text octets where
  short_message := rfl
  message_payload := rfl
  sar_msg_ref_num := rfl
  sar_total_segments := rfl
  sar_segment_seqnum := rfl
  codec := ⟨gsm0338, .inl rfl, rfl, hencode, hdecode⟩

/-- A text that begins like a header is kept if it is of no part. -/
theorem no_part_keepsText :
    KeepsText .default (ownPdu [0x05, 0x00, 0x03, 0x00, 0x00, 0x01]) (str "é@¥@@£")
      CacheOp.stillEnv (new 86400) :=
  (keepsText_iff (carriesText_ownPdu (by decide +kernel) (by decide +kernel)) _ _).2
    ⟨⟨str "2", str "1", rfl, rfl⟩, by decide⟩

/-- The text of six characters that are the header of the first part of one. -/
theorem header_not_keepsText :
    CarriesText .default (ownPdu [0x05, 0x00, 0x03, 0x00, 0x01, 0x01, 0x68, 0x69]) (str "é@¥@££hi")
        [0x05, 0x00, 0x03, 0x00, 0x01, 0x01, 0x68, 0x69] ∧
      ¬ KeepsText .default (ownPdu [0x05, 0x00, 0x03, 0x00, 0x01, 0x01, 0x68, 0x69])
        (str "é@¥@££hi") CacheOp.stillEnv (new 86400) := by
  have hcarries : CarriesText .default (ownPdu [0x05, 0x00, 0x03, 0x00, 0x01, 0x01, 0x68, 0x69])
      (str "é@¥@££hi") [0x05, 0x00, 0x03, 0x00, 0x01, 0x01, 0x68, 0x69] :=
    carriesText_ownPdu (by decide +kernel) (by decide +kernel)
  have hextract : extractMultipart (ownPdu [0x05, 0x00, 0x03, 0x00, 0x01, 0x01, 0x68, 0x69]) =
      some (0, 1, 1, some [0x68, 0x69]) := rfl
  exact ⟨hcarries, hcarries.not_keepsText hextract (by decide) _ _⟩

end ShortMessageProcessor

end Vumi2.Smpp
