import Vumi2.Smpp.SingleParts

/-!
# The field that a text is read from

The user data of a PDU is in its `message_payload`, or else in its `short_message`. The text that a
message is made of, or that is stored as a part, should be the decoding of that field
(`ReadsText`), be it of a message of its own or of a part. But for a part with SAR fields the
payload is not looked at (`readsText_iff`).
-/

namespace Vumi2.Smpp

open Effect Eff Text InMemorySmppCache

/-! ## A part among others -/

/-- The text of one part is a piece of the joined text. -/
theorem joined_set (parts : Dict ℕ Str) (part_num : ℕ) :
    ∃ before after, ∀ text, joined (parts.set part_num text) = before ++ (text ++ after) := by
  have hmem : part_num ∈ (parts.set part_num []).keys.insertionSort (· ≤ ·) :=
    (List.mem_insertionSort _).2
      (Dict.mem_keys.2 ⟨[], Dict.get?_eq_some.1 (Dict.get?_set_self _ _ _)⟩)
  have hnodup : ((parts.set part_num []).keys.insertionSort (· ≤ ·)).Nodup :=
    (List.perm_insertionSort _ _).nodup_iff.2 (parts.set part_num []).keys_nodup
  obtain ⟨l, r, hsplit⟩ := List.append_of_mem hmem
  rw [hsplit, List.nodup_middle, List.nodup_cons, List.mem_append, not_or] at hnodup
  obtain ⟨⟨hl, hr⟩, -⟩ := hnodup
  -- The other parts, before and after it, are what they were.
  have hother (text : Str) {ks : List ℕ} (h : part_num ∉ ks) :
      (ks.flatMap fun k => ((parts.set part_num text).get? k).getD []) =
        ks.flatMap fun k => (parts.get? k).getD [] := by
    refine List.flatMap_congr fun k hk => ?_
    have hne : k ≠ part_num := by
      rintro rfl
      exact h hk
    rw [Dict.get?_set_of_ne _ _ hne]
  refine ⟨l.flatMap fun k => (parts.get? k).getD [], r.flatMap fun k => (parts.get? k).getD [],
    fun text => ?_⟩
  rw [joined_eq_flatMap, parts.keys_set_eq part_num text [], hsplit, List.flatMap_append,
    List.flatMap_cons, hother text hl, hother text hr, Dict.get?_set_self, Option.getD_some]

/-- So parts with different texts are joined to different texts. -/
theorem joined_stored_inj {c : InMemorySmppCache} {ref_num : ℤ} {tot_num part_num : ℕ}
    {text text' : Str}
    (h : joined (c.stored ref_num tot_num part_num text) =
      joined (c.stored ref_num tot_num part_num text')) : text = text' := by
  obtain ⟨before, after, hjoined⟩ :=
    joined_set ((c.multipart.get? (ref_num, tot_num)).getD Dict.empty) part_num
  rw [stored, stored, hjoined, hjoined] at h
  exact List.append_cancel_right (List.append_cancel_left h)

/-- The number of parts kept does not depend on the texts. -/
theorem length_stored (c : InMemorySmppCache) (ref_num : ℤ) (tot_num part_num : ℕ)
    (text text' : Str) :
    (c.stored ref_num tot_num part_num text).length =
      (c.stored ref_num tot_num part_num text').length := by
  rw [stored, stored, ← Dict.length_keys, ← Dict.length_keys, Dict.keys_set_eq]

/-- Two texts that are kept alike are one text. -/
theorem keepPart_inj {c : InMemorySmppCache} {ref_num : ℤ} {tot_num part_num : ℕ}
    {text text' : Str}
    (h : c.keepPart ref_num tot_num part_num text = c.keepPart ref_num tot_num part_num text') :
    text = text' := by
  have hparts := congrArg (fun c => c.multipart.get? (ref_num, tot_num)) h
  simp only [keepPart, Dict.get?_set_self, Option.some.injEq] at hparts
  have hpart := congrArg (Dict.get? · part_num) hparts
  simpa [stored] using hpart

/-! ## The text of a PDU -/

/-- All three SAR fields are there. -/
def HasSar (pdu : DeliverSM) : Prop :=
  pdu.sar_msg_ref_num.isSome ∧ pdu.sar_total_segments.isSome ∧ pdu.sar_segment_seqnum.isSome

instance (pdu : DeliverSM) : Decidable (HasSar pdu) := inferInstanceAs (Decidable (_ ∧ _))

/-- The octets that the text of a PDU should be read from: its `message_payload`, or else its
`short_message`, of which a header that says what the SAR fields would is no text. -/
def textOctets (pdu : DeliverSM) : Option Bytes :=
  match pdu.message_payload with
  | some message_payload => some message_payload
  | none =>
    if HasSar pdu then pdu.short_message
    else pdu.short_message.map ShortMessageProcessor.unheaded

namespace ShortMessageProcessor

variable {P : ShortMessageProcessor} {pdu : DeliverSM} {text : Str} {env : ℕ → Reading}
  {c : InMemorySmppCache}

/-- The text becomes a message, or it is stored as the part that the PDU is, or it completes the
message of that part. -/
def ReadsText (P : ShortMessageProcessor) (pdu : DeliverSM) (text : Str) (env : ℕ → Reading)
    (c : InMemorySmppCache) : Prop :=
  match extractMultipart pdu with
  | none =>
    (∃ msg, ((P.handleDeliverSm pdu).run env c).result = .ok (some msg) ∧
      msg.content = .string text) ∧ ((P.handleDeliverSm pdu).run env c).state = c
  | some (ref_num, tot_num, part_num, _) =>
    if (c.stored ref_num tot_num part_num text).length = tot_num then
      (∃ msg, ((P.handleDeliverSm pdu).run env c).result = .ok (some msg) ∧
        msg.content = .string (joined (c.stored ref_num tot_num part_num text))) ∧
        ((P.handleDeliverSm pdu).run env c).state = c.dropParts ref_num tot_num
    else
      ((P.handleDeliverSm pdu).run env c).result = .ok none ∧
        ((P.handleDeliverSm pdu).run env c).state = c.keepPart ref_num tot_num part_num text

/-- A PDU makes a message: it is one of its own, or the last part of one. -/
def MakesMessage (c : InMemorySmppCache) (pdu : DeliverSM) : Prop :=
  match extractMultipart pdu with
  | none => True
  | some (ref_num, tot_num, part_num, _) => (c.stored ref_num tot_num part_num []).length = tot_num

/-- The text of a part is read if that is what its octets decode to. -/
theorem readsText_part_iff {ref_num : ℤ} {tot_num part_num : ℕ} {content : Option Bytes}
    (hextract : extractMultipart pdu = some (ref_num, tot_num, part_num, content)) :
    ReadsText P pdu text env c ↔
      P.decodeText content pdu.data_coding = .ok text ∧
        (MakesMessage c pdu → HasAddresses pdu) := by
  rw [ReadsText, MakesMessage, hextract]
  dsimp only
  rw [length_stored c ref_num tot_num part_num text []]
  cases hdecode : P.decodeText content pdu.data_coding with
  | error e =>
    obtain ⟨e', hrun⟩ := P.run_handleDeliverSm_undecodable hextract hdecode env c
    rw [hrun]
    simp
  | ok other =>
    have hlength := length_stored c ref_num tot_num part_num other []
    by_cases hlast : (c.stored ref_num tot_num part_num []).length = tot_num
    · -- The last part makes the message, which needs addresses.
      rw [if_pos hlast]
      rw [← hlength] at hlast
      by_cases haddr : HasAddresses pdu
      · obtain ⟨to_addr, from_addr, haddr'⟩ := haddr
        rw [P.run_handleDeliverSm_last hextract hdecode haddr' env hlast]
        constructor
        · rintro ⟨⟨msg, hmsg, hcontent⟩, _⟩
          obtain rfl := Option.some.inj (Except.ok.inj hmsg)
          have htext : other = text := joined_stored_inj (Json.string.inj hcontent)
          exact ⟨congrArg Except.ok htext, fun _ => ⟨to_addr, from_addr, haddr'⟩⟩
        · rintro ⟨htext, _⟩
          obtain rfl := Except.ok.inj htext
          exact ⟨⟨_, rfl, rfl⟩, rfl⟩
      · obtain ⟨e, hrun⟩ := P.run_handleDeliverSm_unaddressed hextract hdecode haddr env hlast
        rw [hrun]
        simp [haddr, ← hlength, hlast]
    · -- Any other part is kept, and what is kept shows its text.
      rw [if_neg hlast]
      rw [← hlength] at hlast
      rw [P.run_handleDeliverSm_more hextract hdecode env hlast]
      constructor
      · rintro ⟨_, hkeep⟩
        rw [hlength] at hlast
        exact ⟨congrArg Except.ok (keepPart_inj hkeep), fun h => absurd h hlast⟩
      · rintro ⟨htext, _⟩
        obtain rfl := Except.ok.inj htext
        exact ⟨rfl, rfl⟩

/-- The text of a message of its own is read with its addresses. -/
theorem readsText_single_iff (hextract : extractMultipart pdu = none)
    (htext : P.getText pdu = .ok text) :
    ReadsText P pdu text env c ↔ (MakesMessage c pdu → HasAddresses pdu) := by
  have hrun := P.run_handleDeliverSm_single hextract env c
  rw [htext, fromCoroutine_ok] at hrun
  rw [ReadsText, MakesMessage, hextract]
  dsimp only
  by_cases haddr : HasAddresses pdu
  · obtain ⟨to_addr, from_addr, haddr'⟩ := haddr
    rw [run_message haddr'] at hrun
    rw [hrun]
    exact iff_of_true ⟨⟨_, rfl, rfl⟩, rfl⟩ fun _ => ⟨to_addr, from_addr, haddr'⟩
  · obtain ⟨e, hmessage⟩ : ∃ e, (message pdu (.ok text)).run env c = ⟨.error e, 0, c⟩ :=
      run_message_error (fun hboth => haddr hboth.1) env c
    rw [hmessage] at hrun
    rw [hrun]
    refine iff_of_false ?_ fun h => haddr (h trivial)
    rintro ⟨⟨msg, hmsg, _⟩, _⟩
    cases hmsg

/-- With SAR fields a PDU is the part that they say. -/
theorem extractMultipart_sar (h : HasSar pdu) :
    ∃ ref_num tot_num part_num,
      extractMultipart pdu = some (ref_num, tot_num, part_num, pdu.short_message) := by
  obtain ⟨href, htotal, hpart⟩ := h
  obtain ⟨ref_num, href⟩ := Option.isSome_iff_exists.1 href
  obtain ⟨tot_num, htotal⟩ := Option.isSome_iff_exists.1 htotal
  obtain ⟨part_num, hpart⟩ := Option.isSome_iff_exists.1 hpart
  exact ⟨ref_num, tot_num, part_num, by rw [extractMultipart, href, htotal, hpart]⟩

/-- Without them it is the part that the header of its message says, if there is one. -/
theorem extractMultipart_no_sar (h : ¬ HasSar pdu) :
    extractMultipart pdu = none ∧ pdu.short_message.map unheaded = pdu.short_message ∨
      ∃ ref_num tot_num part_num octets, pdu.short_message = some octets ∧ Headed octets ∧
        extractMultipart pdu = some (ref_num, tot_num, part_num, some (unheaded octets)) := by
  have hsar : pdu.sar_msg_ref_num = none ∨ pdu.sar_total_segments = none ∨
      pdu.sar_segment_seqnum = none := by
    by_contra hall
    simp only [not_or, ← Option.isSome_iff_ne_none, ← ne_eq] at hall
    exact h hall
  -- Without the SAR fields only the octets can make it a part.
  cases hmessage : pdu.short_message with
  | none =>
    left
    refine ⟨?_, rfl⟩
    rw [extractMultipart]
    split
    case h_1 ref_num tot_num part_num href htotal hpart =>
      rw [href, htotal, hpart] at hsar
      simp at hsar
    case h_2 => rw [hmessage]
  | some octets =>
    rcases extractMultipart_octets hmessage hsar with
      ⟨hheaded, hextract⟩ | ⟨hheaded, ref_num, tot_num, part_num, hextract⟩
    · exact .inl ⟨hextract, by rw [Option.map_some, unheaded_of_not_headed hheaded]⟩
    · exact .inr ⟨ref_num, tot_num, part_num, octets, rfl, hheaded, hextract⟩

/-- The text of a PDU is read from its field, unless the PDU has SAR fields and a payload, and its
short message does not decode to the text as well. -/
theorem readsText_iff (hdecode : P.decodeText (textOctets pdu) pdu.data_coding = .ok text)
    (hshort : pdu.message_payload ≠ none →
      pdu.short_message = none ∨ pdu.short_message = some [])
    (env : ℕ → Reading) (c : InMemorySmppCache) :
    ReadsText P pdu text env c ↔
      (HasSar pdu → pdu.message_payload = none ∨
        P.decodeText pdu.short_message pdu.data_coding = .ok text) ∧
      (MakesMessage c pdu → HasAddresses pdu) := by
  by_cases hsar : HasSar pdu
  · -- The part is read from the short message.
    obtain ⟨ref_num, tot_num, part_num, hextract⟩ := extractMultipart_sar hsar
    rw [readsText_part_iff hextract]
    refine and_congr_left' ⟨fun h _ => .inr h, fun h => ?_⟩
    rcases h hsar with hpayload | h
    · rwa [textOctets, hpayload, if_pos hsar] at hdecode
    · exact h
  · simp only [hsar, false_implies, true_and]
    rcases extractMultipart_no_sar hsar with
      ⟨hextract, hwhole⟩ | ⟨ref_num, tot_num, part_num, octets, hmessage, hheaded, hextract⟩
    · refine readsText_single_iff hextract ?_
      rw [textOctets, if_neg hsar, hwhole] at hdecode
      exact hdecode
    · -- Octets that begin like a header are there, so there is no payload.
      have hpayload : pdu.message_payload = none := by
        by_contra hne
        rcases hshort hne with h | h
        · rw [hmessage] at h
          cases h
        · rw [hmessage] at h
          obtain rfl := Option.some.inj h
          exact absurd hheaded (by decide)
      rw [textOctets, hpayload, if_neg hsar, hmessage] at hdecode
      rw [readsText_part_iff hextract]
      exact ⟨fun h => h.2, fun h => ⟨hdecode, h⟩⟩

/-- One of the two parts of a message, with the letter `a` in one of the fields. -/
def letterPart (part_num : ℕ) (short_message message_payload : Option Bytes) : DeliverSM :=
  { ownPdu [] with
    short_message := short_message
    message_payload := message_payload
    sar_msg_ref_num := some 7
    sar_total_segments := some 2
    sar_segment_seqnum := some part_num }

/-- A part of a letter has its addresses. -/
theorem hasAddresses_letterPart (part_num : ℕ) (short_message message_payload : Option Bytes) :
    HasAddresses (letterPart part_num short_message message_payload) :=
  ⟨str "2", str "1", rfl, rfl⟩

/-- The letter is decoded by the default alphabet. -/
theorem decodeText_letter :
    ShortMessageProcessor.default.decodeText (some [0x61]) (.default .SMSC_DEFAULT_ALPHABET) =
      .ok (str "a") := by
  decide +kernel

/-- A part in the short message. -/
theorem short_message_readsText :
    ReadsText .default (letterPart 1 (some [0x61]) none) (str "a") CacheOp.stillEnv (new 86400) :=
  (readsText_iff decodeText_letter (fun h => absurd rfl h) _ _).2
    ⟨fun _ => .inl rfl, fun _ => hasAddresses_letterPart _ _ _⟩

/-- A part in the payload is stored as an empty one, and the message of two such parts is empty. -/
theorem payload_not_readsText :
    ¬ ReadsText .default (letterPart 1 (some []) (some [0x61])) (str "a") CacheOp.stillEnv
        (new 86400) ∧
      ∃ msg, ((do
          let _ ← ShortMessageProcessor.default.handleDeliverSm
            (letterPart 1 (some []) (some [0x61]))
          ShortMessageProcessor.default.handleDeliverSm
            (letterPart 2 (some []) (some [0x61]))).run CacheOp.stillEnv (new 86400)).result =
        .ok (some msg) ∧ msg.content = .string [] := by
  constructor
  · rintro h
    have hextract : extractMultipart (letterPart 1 (some []) (some [0x61])) =
        some (7, 2, 1, some []) := rfl
    have hempty := ((readsText_part_iff hextract).1 h).1
    cases hempty
  · exact ⟨_, rfl, rfl⟩

end ShortMessageProcessor

end Vumi2.Smpp
