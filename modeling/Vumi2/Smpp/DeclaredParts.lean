import Vumi2.Smpp.Reassembly

/-!
# What a message is put together from

A part says which number it has and how many parts there are, in SAR fields or in a header of the
user data. `extract_multipart` takes a header for one only if these numbers agree with each other,
but takes the SAR fields as they are (`extractMultipart_cases`).

The cache puts a message together as soon as it has as many parts as the total, whichever these are.
So its content is that of the parts 1 to the total, each as it was stored last, as long as all parts
are numbered in this range: `Sound` says it of the cache, and is kept by every PDU whose SAR fields
are valid.
-/

namespace Vumi2.Smpp

open Effect Eff Text InMemorySmppCache ShortMessageProcessor

/-! ## Which numbers are checked -/

/-- The SAR fields of a PDU, if it has all of them, number a part of a message. -/
def SarValid (pdu : DeliverSM) : Prop :=
  ∀ ref_num total part, pdu.sar_msg_ref_num = some ref_num →
    pdu.sar_total_segments = some total → pdu.sar_segment_seqnum = some part →
    1 ≤ total ∧ 1 ≤ part ∧ part ≤ total

/-- A PDU that is taken for a part of a message has a number in the range of its total. -/
def DeclaresPart (pdu : DeliverSM) : Prop :=
  ∀ ref_num total part content, extractMultipart pdu = some (ref_num, total, part, content) →
    1 ≤ total ∧ 1 ≤ part ∧ part ≤ total

variable {pdu : DeliverSM} {ref_num : ℤ} {total part : ℕ} {content : Option Bytes}

/-- A PDU with all three SAR fields is read as a part. -/
theorem extractMultipart_of_sar (href : pdu.sar_msg_ref_num = some ref_num)
    (htotal : pdu.sar_total_segments = some total) (hpart : pdu.sar_segment_seqnum = some part) :
    extractMultipart pdu = some (ref_num, total, part, pdu.short_message) := by
  unfold extractMultipart
  rw [href, htotal, hpart]

/-- The numbers are those of the SAR fields, or they were checked. -/
theorem extractMultipart_cases (h : extractMultipart pdu = some (ref_num, total, part, content)) :
    (pdu.sar_msg_ref_num = some ref_num ∧ pdu.sar_total_segments = some total ∧
        pdu.sar_segment_seqnum = some part) ∨
      (1 ≤ total ∧ 1 ≤ part ∧ part ≤ total) := by
  unfold extractMultipart at h
  split at h
  next ref_num' total' part' href htotal hpart =>
    -- All three SAR fields are there.
    cases h
    exact .inl ⟨href, htotal, hpart⟩
  next =>
    right
    split at h
    next => cases h
    next short_message hshort =>
      dsimp only at h
      split_ifs at h with hcsm hcsm16
      · cases h
        exact hcsm.2.2
      · cases h
        exact hcsm16.2.2

/-- A PDU declares a part exactly if its SAR fields are valid. -/
theorem declaresPart_iff : DeclaresPart pdu ↔ SarValid pdu := by
  constructor
  · intro h ref_num total part href htotal hpart
    exact h _ _ _ _ (extractMultipart_of_sar href htotal hpart)
  · intro h ref_num total part content hextract
    rcases extractMultipart_cases hextract with ⟨href, htotal, hpart⟩ | hchecked
    · exact h _ _ _ href htotal hpart
    · exact hchecked

/-! ## The texts that were stored -/

variable (receiver : ShortMessageProcessor)

/-- The text that a PDU stores as a part under a key, if it does. -/
def storedText? (pdu : DeliverSM) (key : ℤ × ℕ) (part : ℕ) : Option Str :=
  match extractMultipart pdu with
  | some (ref_num, total, part_num, content) =>
    if (ref_num, total) = key ∧ part_num = part then
      (receiver.decodeText content pdu.data_coding).toOption
    else none
  | none => none

/-- The text that was stored last as a part under a key. -/
def lastText? (history : List DeliverSM) (key : ℤ × ℕ) (part : ℕ) : Option Str :=
  history.reverse.findSome? fun pdu => storedText? receiver pdu key part

/-- The content of a message is that of the parts 1 to the total, in this order, each as it was
stored last. -/
def MadeOfParts (history : List DeliverSM) (ref_num : ℤ) (total : ℕ) (msg : Message) : Prop :=
  1 ≤ total ∧ ∃ texts : ℕ → Str,
    (∀ part, 1 ≤ part → part ≤ total →
      lastText? receiver history (ref_num, total) part = some (texts part)) ∧
    msg.content = .string ((List.range total).map fun i => texts (i + 1)).flatten

/-- In a run over these PDUs, only numbered parts are taken for parts, and a message that is put
together is made of the parts that it declares. -/
structure OnlyDeclaredParts (pdus : List DeliverSM) (env : ℕ → Reading) (c : InMemorySmppCache) :
    Prop where
  taken : ∀ pdu ∈ pdus, DeclaresPart pdu
  emitted : ∀ before pdu after, pdus = before ++ pdu :: after →
    ∀ ref_num total part content, extractMultipart pdu = some (ref_num, total, part, content) →
    ∀ msg, ((receiver.handleMultipartMessage pdu).run
        (later env ((receive receiver before).run env c).used)
        ((receive receiver before).run env c).state).result = .ok (true, some msg) →
      MadeOfParts receiver (before ++ [pdu]) ref_num total msg

variable {receiver} {history : List DeliverSM} {key : ℤ × ℕ} {text : Str}

/-- One more PDU decides on the part that it declares, and on no other. -/
theorem lastText?_append (pdu : DeliverSM) :
    lastText? receiver (history ++ [pdu]) key part =
      (storedText? receiver pdu key part).or (lastText? receiver history key part) := by
  unfold lastText?
  rw [List.reverse_append, List.reverse_singleton, List.singleton_append, List.findSome?_cons]
  cases storedText? receiver pdu key part with
  | none => rfl
  | some text => rfl

/-- A part that can be decoded is stored as its text. -/
theorem storedText?_of_decoded
    (hextract : extractMultipart pdu = some (ref_num, total, part, content))
    (htext : receiver.decodeText content pdu.data_coding = .ok text) :
    storedText? receiver pdu (ref_num, total) part = some text := by
  unfold storedText?
  rw [hextract]
  dsimp only
  rw [if_pos ⟨rfl, rfl⟩, htext]
  rfl

/-- A part is stored nowhere else. -/
theorem storedText?_of_ne (hextract : extractMultipart pdu = some (ref_num, total, part, content))
    {other : ℕ} (h : ¬ ((ref_num, total) = key ∧ part = other)) :
    storedText? receiver pdu key other = none := by
  unfold storedText?
  rw [hextract]
  exact if_neg h

/-- A part that cannot be decoded is not stored. -/
theorem storedText?_of_undecodable
    (hextract : extractMultipart pdu = some (ref_num, total, part, content)) {e : PyExc}
    (htext : receiver.decodeText content pdu.data_coding = .error e) (key : ℤ × ℕ) (other : ℕ) :
    storedText? receiver pdu key other = none := by
  unfold storedText?
  rw [hextract]
  dsimp only
  rw [htext]
  split_ifs
  · rfl
  · rfl

/-! ## What the cache holds -/

variable {c : InMemorySmppCache}

/-- Every text in the cache has a number in the range of its total, and was stored last there. -/
def Sound (receiver : ShortMessageProcessor) (history : List DeliverSM) (c : InMemorySmppCache) :
    Prop :=
  ∀ key parts part text, c.multipart.get? key = some parts → parts.get? part = some text →
    (1 ≤ part ∧ part ≤ key.2) ∧ lastText? receiver history key part = some text

/-- The parts with the one that arrives. -/
theorem Sound.stored (h : Sound receiver history c) (hvalid : SarValid pdu)
    (hextract : extractMultipart pdu = some (ref_num, total, part, content))
    (htext : receiver.decodeText content pdu.data_coding = .ok text) {other : ℕ} {t : Str}
    (hget : (c.stored ref_num total part text).get? other = some t) :
    (1 ≤ other ∧ other ≤ total) ∧
      lastText? receiver (history ++ [pdu]) (ref_num, total) other = some t := by
  unfold InMemorySmppCache.stored at hget
  rw [lastText?_append]
  by_cases hother : part = other
  · -- The part itself is stored last.
    subst hother
    rw [Dict.get?_set_self] at hget
    obtain rfl := Option.some.inj hget
    rw [storedText?_of_decoded hextract htext]
    exact ⟨(declaresPart_iff.2 hvalid _ _ _ _ hextract).2, rfl⟩
  · rw [Dict.get?_set_of_ne _ _ (Ne.symm hother)] at hget
    rw [storedText?_of_ne hextract fun h => hother h.2, Option.none_or]
    cases hparts : c.multipart.get? (ref_num, total) with
    | none =>
      rw [hparts] at hget
      cases (Dict.get?_empty other).symm.trans hget
    | some parts =>
      rw [hparts] at hget
      exact h _ _ _ _ hparts hget

/-- What is under another key stays as it was. -/
theorem Sound.of_ne (h : Sound receiver history c)
    (hextract : extractMultipart pdu = some (ref_num, total, part, content))
    (hkey : key ≠ (ref_num, total)) {parts : Dict ℕ Str} {other : ℕ} {t : Str}
    (hparts : c.multipart.get? key = some parts) (hget : parts.get? other = some t) :
    (1 ≤ other ∧ other ≤ key.2) ∧ lastText? receiver (history ++ [pdu]) key other = some t := by
  rw [lastText?_append, storedText?_of_ne hextract fun h => hkey h.1.symm, Option.none_or]
  exact h _ _ _ _ hparts hget

/-- A PDU that stores nothing leaves the cache sound. -/
theorem Sound.of_none (h : Sound receiver history c)
    (hnone : ∀ key part, storedText? receiver pdu key part = none) :
    Sound receiver (history ++ [pdu]) c := by
  intro key parts part text hparts hget
  rw [lastText?_append, hnone, Option.none_or]
  exact h _ _ _ _ hparts hget

/-- Keeping a declared part keeps the cache sound. -/
theorem Sound.keepPart (h : Sound receiver history c) (hvalid : SarValid pdu)
    (hextract : extractMultipart pdu = some (ref_num, total, part, content))
    (htext : receiver.decodeText content pdu.data_coding = .ok text) :
    Sound receiver (history ++ [pdu]) (c.keepPart ref_num total part text) := by
  intro key parts other t hparts hget
  have hmultipart : (c.multipart.set (ref_num, total) (c.stored ref_num total part text)).get? key =
      some parts := hparts
  by_cases hkey : key = (ref_num, total)
  · subst hkey
    rw [Dict.get?_set_self] at hmultipart
    obtain rfl := Option.some.inj hmultipart
    exact h.stored hvalid hextract htext hget
  · rw [Dict.get?_set_of_ne _ _ hkey] at hmultipart
    exact h.of_ne hextract hkey hmultipart hget

/-- Dropping the parts of a message keeps the cache sound. -/
theorem Sound.dropParts (h : Sound receiver history c)
    (hextract : extractMultipart pdu = some (ref_num, total, part, content)) :
    Sound receiver (history ++ [pdu]) (c.dropParts ref_num total) := by
  intro key parts other t hparts hget
  have hmultipart : (c.multipart.erase (ref_num, total)).get? key = some parts := hparts
  by_cases hkey : key = (ref_num, total)
  · subst hkey
    rw [Dict.get?_erase_self] at hmultipart
    cases hmultipart
  · rw [Dict.get?_erase_of_ne _ hkey] at hmultipart
    exact h.of_ne hextract hkey hmultipart hget

/-- One PDU keeps the cache sound, if its SAR fields are valid. -/
theorem Sound.step (h : Sound receiver history c) (hvalid : SarValid pdu) (env : ℕ → Reading) :
    Sound receiver (history ++ [pdu]) ((receiver.handleDeliverSm pdu).run env c).state := by
  cases hextract : extractMultipart pdu with
  | none =>
    -- A message of its own.
    have hstate : ((receiver.handleDeliverSm pdu).run env c).state = c := by
      rw [receiver.run_handleDeliverSm_single hextract]
      by_cases hmessage : (∃ to_addr from_addr, Addressed pdu to_addr from_addr) ∧
          ∃ text, receiver.getText pdu = .ok text
      · obtain ⟨⟨to_addr, from_addr, haddr⟩, text, htext⟩ := hmessage
        rw [htext, fromCoroutine_ok, run_message haddr]
      · have hunread : ¬((∃ to_addr from_addr, Addressed pdu to_addr from_addr) ∧
            ∃ text, fromCoroutine (receiver.getText pdu) = .ok text) :=
          fun ⟨haddr, text, hget⟩ => hmessage ⟨haddr, text, fromCoroutine_eq_ok.1 hget⟩
        obtain ⟨e, he⟩ := run_message_error hunread env c
        rw [he]
    rw [hstate]
    refine h.of_none fun key part => ?_
    unfold storedText?
    rw [hextract]
  | some extracted =>
    obtain ⟨ref_num, total, part, content⟩ := extracted
    cases htext : receiver.decodeText content pdu.data_coding with
    | error e =>
      obtain ⟨e', hrun⟩ := receiver.run_handleDeliverSm_undecodable hextract htext env c
      rw [hrun]
      exact h.of_none (storedText?_of_undecodable hextract htext)
    | ok text =>
      by_cases hlast : (c.stored ref_num total part text).length = total
      · by_cases haddr : ∃ to_addr from_addr, Addressed pdu to_addr from_addr
        · obtain ⟨to_addr, from_addr, haddr⟩ := haddr
          rw [receiver.run_handleDeliverSm_last hextract htext haddr env hlast]
          exact h.dropParts hextract
        · obtain ⟨e, he⟩ :=
            receiver.run_handleDeliverSm_unaddressed hextract htext haddr env hlast
          rw [he]
          exact h.dropParts hextract
      · rw [receiver.run_handleDeliverSm_more hextract htext env hlast]
        exact h.keepPart hvalid hextract htext

/-- PDUs are received one after the other. -/
theorem state_receive_cons (pdu : DeliverSM) (pdus : List DeliverSM) (env : ℕ → Reading)
    (c : InMemorySmppCache) :
    ((receive receiver (pdu :: pdus)).run env c).state =
      ((receive receiver pdus).run
        (later env ((receiver.handleDeliverSm pdu).run env c).used)
        ((receiver.handleDeliverSm pdu).run env c).state).state := by
  rw [receive, run_bind_ok (run_attempt _ _ _), run_bind]
  cases ((receive receiver pdus).run (later env ((receiver.handleDeliverSm pdu).run env c).used)
      ((receiver.handleDeliverSm pdu).run env c).state).result with
  | error e => rfl
  | ok rs => rfl

/-- So does a run. -/
theorem Sound.receive {pdus : List DeliverSM} (h : Sound receiver history c)
    (hvalid : ∀ pdu ∈ pdus, SarValid pdu) (env : ℕ → Reading) :
    Sound receiver (history ++ pdus) ((receive receiver pdus).run env c).state := by
  induction pdus generalizing history env c with
  | nil =>
    rw [List.append_nil]
    exact h
  | cons pdu pdus ih =>
    rw [state_receive_cons, List.append_cons]
    exact ih (h.step (hvalid _ List.mem_cons_self) env)
      (fun other hother => hvalid other (List.mem_cons_of_mem _ hother)) _

/-- An empty cache is sound. -/
theorem sound_nil (h : c.multipart = Dict.empty) : Sound receiver [] c := by
  intro key parts part text hparts _
  rw [h] at hparts
  cases (Dict.get?_empty key).symm.trans hparts

/-! ## What is put together -/

/-- As many parts as the total, all in its range, have the numbers 1 to the total. -/
theorem keys_perm_range {parts : Dict ℕ Str} (hlength : parts.length = total)
    (hrange : ∀ part text, parts.get? part = some text → 1 ≤ part ∧ part ≤ total) :
    parts.keys.Perm ((List.range total).map (· + 1)) := by
  have hsubset : parts.keys ⊆ (List.range total).map (· + 1) := by
    intro part hpart
    obtain ⟨text, htext⟩ := Dict.mem_keys.1 hpart
    have hbounds := hrange part text (Dict.get?_eq_some.2 htext)
    exact List.mem_map.2 ⟨part - 1, List.mem_range.2 (by omega), by omega⟩
  apply (List.subperm_of_subset parts.keys_nodup hsubset).perm_of_length_le
  rw [List.length_map, List.length_range, parts.length_keys]
  exact hlength.ge

/-- They are the parts 1 to the total, joined in this order. -/
theorem joined_of_parts {parts : Dict ℕ Str} (hlength : parts.length = total)
    (hrange : ∀ part text, parts.get? part = some text → 1 ≤ part ∧ part ≤ total) :
    ∃ texts : ℕ → Str, (∀ part, 1 ≤ part → part ≤ total → parts.get? part = some (texts part)) ∧
      joined parts = ((List.range total).map fun i => texts (i + 1)).flatten := by
  have hkeys := keys_perm_range hlength hrange
  refine ⟨fun part => (parts.get? part).getD [], fun part hlow hhigh => ?_, ?_⟩
  · have hmem : part ∈ parts.keys :=
      hkeys.mem_iff.2 (List.mem_map.2 ⟨part - 1, List.mem_range.2 (by omega), by omega⟩)
    obtain ⟨text, htext⟩ := Dict.mem_keys.1 hmem
    show parts.get? part = some ((parts.get? part).getD [])
    rw [Dict.get?_eq_some.2 htext]
    rfl
  · -- The numbers in order are the range.
    have hpairwise : ((List.range total).map (· + 1)).Pairwise (· ≤ ·) :=
      List.pairwise_le_range.map _ fun a b hab => Nat.add_le_add_right hab 1
    have hsorted : parts.keys.insertionSort (· ≤ ·) = (List.range total).map (· + 1) :=
      ((List.perm_insertionSort _ _).trans hkeys).eq_of_pairwise
        (fun _ _ _ _ => Nat.le_antisymm) (List.pairwise_insertionSort _ _) hpairwise
    rw [joined_eq_flatMap, hsorted, List.flatMap_def, List.map_map]
    rfl

/-- A message that is put together on a sound cache is made of its parts. -/
theorem Sound.madeOfParts (h : Sound receiver history c) (hvalid : SarValid pdu)
    (hextract : extractMultipart pdu = some (ref_num, total, part, content)) {env : ℕ → Reading}
    {msg : Message} (hmsg : ((receiver.handleMultipartMessage pdu).run env c).result =
      .ok (true, some msg)) :
    MadeOfParts receiver (history ++ [pdu]) ref_num total msg := by
  cases htext : receiver.decodeText content pdu.data_coding with
  | error e =>
    obtain ⟨e', hrun⟩ := receiver.run_handleMultipartMessage_undecodable hextract htext env c
    rw [hrun] at hmsg
    cases hmsg
  | ok text =>
    -- Only the last part gives a message, if it is decoded and has its addresses.
    by_cases hlast : (c.stored ref_num total part text).length = total
    · by_cases haddr : ∃ to_addr from_addr, Addressed pdu to_addr from_addr
      · obtain ⟨to_addr, from_addr, haddr⟩ := haddr
        rw [receiver.run_handleMultipartMessage_last hextract htext haddr env hlast] at hmsg
        cases hmsg
        -- The cache has each part once, with the text that was declared for it.
        obtain ⟨texts, htexts, hjoined⟩ := joined_of_parts hlast fun other t hget =>
          (h.stored hvalid hextract htext hget).1
        refine ⟨(declaresPart_iff.2 hvalid _ _ _ _ hextract).1, texts, fun other hlow hhigh => ?_,
          congrArg Json.string hjoined⟩
        exact (h.stored hvalid hextract htext (htexts other hlow hhigh)).2
      · obtain ⟨e, he⟩ :=
          receiver.run_handleMultipartMessage_unaddressed hextract htext haddr env hlast
        rw [he] at hmsg
        cases hmsg
    · rw [receiver.run_handleMultipartMessage_more hextract htext env hlast] at hmsg
      cases hmsg

/-- In a run, messages are made of the parts that they declare, and of numbered parts only, exactly
if all SAR fields are valid. -/
theorem onlyDeclaredParts_iff (receiver : ShortMessageProcessor) (pdus : List DeliverSM)
    (env : ℕ → Reading) {c : InMemorySmppCache} (hc : c.multipart = Dict.empty) :
    OnlyDeclaredParts receiver pdus env c ↔ ∀ pdu ∈ pdus, SarValid pdu := by
  constructor
  · exact fun h pdu hpdu => declaresPart_iff.1 (h.taken pdu hpdu)
  · intro hvalid
    refine ⟨fun pdu hpdu => declaresPart_iff.2 (hvalid pdu hpdu), ?_⟩
    rintro before pdu after rfl ref_num total part content hextract msg hmsg
    have hstart : Sound receiver [] c := sound_nil hc
    have hsound := hstart.receive
      (fun other hother => hvalid other (List.mem_append_left _ hother)) env
    rw [List.nil_append] at hsound
    exact hsound.madeOfParts (hvalid pdu (List.mem_append_right _ List.mem_cons_self)) hextract hmsg

/-! ## Parts that are not in the range of their total -/

/-- A part of one octet with these SAR fields. -/
def sarPart (total part : ℕ) (octet : UInt8) : DeliverSM where
  seqNum := part
  source_addr := some [0x31]
  destination_addr := some [0x39]
  esm_class := .DEFAULT
  data_coding := .default .LATIN_1
  short_message := some [octet]
  message_payload := none
  sar_msg_ref_num := some 7
  sar_total_segments := some total
  sar_segment_seqnum := some part
  receipted_message_id := none
  message_state := none

/-- The first part of two twice, and then the second one. -/
theorem duplicate_onlyDeclaredParts :
    OnlyDeclaredParts .default [sarPart 2 1 0x61, sarPart 2 1 0x62, sarPart 2 2 0x63]
        (fun _ => ⟨0, str "e", DateTime.min⟩) (.new 86400) ↔
      ∀ pdu ∈ [sarPart 2 1 0x61, sarPart 2 1 0x62, sarPart 2 2 0x63], SarValid pdu :=
  onlyDeclaredParts_iff _ _ _ rfl

/-- The first part of two and one with the number 3 are put together, without the second one. -/
theorem third_of_two_put_together :
    (∃ msg, ((ShortMessageProcessor.default.handleMultipartMessage (sarPart 2 3 0x63)).run
        (later (fun _ => ⟨0, str "e", DateTime.min⟩)
          ((receive .default [sarPart 2 1 0x61]).run (fun _ => ⟨0, str "e", DateTime.min⟩)
            (.new 86400)).used)
        ((receive .default [sarPart 2 1 0x61]).run (fun _ => ⟨0, str "e", DateTime.min⟩)
          (.new 86400)).state).result = .ok (true, some msg) ∧
      msg.content = .string (str "ac") ∧
      ¬ MadeOfParts .default ([sarPart 2 1 0x61] ++ [sarPart 2 3 0x63]) 7 2 msg) ∧
    ¬ OnlyDeclaredParts .default [sarPart 2 1 0x61, sarPart 2 3 0x63]
      (fun _ => ⟨0, str "e", DateTime.min⟩) (.new 86400) := by
  have hnone : lastText? .default ([sarPart 2 1 0x61] ++ [sarPart 2 3 0x63]) (7, 2) 2 = none := by
    decide
  have hnot : ∀ msg, ¬ MadeOfParts .default ([sarPart 2 1 0x61] ++ [sarPart 2 3 0x63]) 7 2 msg := by
    rintro msg ⟨-, texts, htexts, -⟩
    cases hnone.symm.trans (htexts 2 (by decide) (by decide))
  refine ⟨⟨messageOf (str "9") (str "1") (str "ac") ⟨0, str "e", DateTime.min⟩, rfl, rfl, hnot _⟩,
    fun h => ?_⟩
  have hvalid := h.taken (sarPart 2 3 0x63) (by simp)
  have hle := (hvalid 7 2 3 _ rfl).2.2
  omega

end Vumi2.Smpp
