import Vumi2.Smpp.ShortMessage

/-!
# What an inbound short message does

A PDU is a part of a message or a message of its own (`extractMultipart`).
`run_handleDeliverSm_part` says what a part does: it is stored under its number (`stored`), and if
that makes as many parts as the total says, the message is put together and its parts are dropped.
-/

namespace Vumi2.Smpp

open Effect Eff Text

namespace InMemorySmppCache

/-- The parts under a key once one more is stored there. -/
def stored (c : InMemorySmppCache) (ref_num : ℤ) (tot_num part_num : ℕ) (content : Str) :
    Dict ℕ Str :=
  ((c.multipart.get? (ref_num, tot_num)).getD Dict.empty).set part_num content

/-- The cache with one more part. -/
def keepPart (c : InMemorySmppCache) (ref_num : ℤ) (tot_num part_num : ℕ) (content : Str) :
    InMemorySmppCache :=
  { c with
    multipart := c.multipart.set (ref_num, tot_num) (c.stored ref_num tot_num part_num content) }

/-- The cache without the parts under a key. -/
def dropParts (c : InMemorySmppCache) (ref_num : ℤ) (tot_num : ℕ) : InMemorySmppCache :=
  { c with multipart := c.multipart.erase (ref_num, tot_num) }

/-- The parts are joined in the order of their numbers. -/
theorem joined_eq_flatMap (parts : Dict ℕ Str) :
    joined parts =
      (parts.keys.insertionSort (· ≤ ·)).flatMap fun part => (parts.get? part).getD [] := by
  have hkeys : (parts.items.insertionSort fun a b => a.1 ≤ b.1).map Prod.fst =
      parts.keys.insertionSort (· ≤ ·) :=
    List.map_insertionSort _ _ _ _ fun a _ b _ => Iff.rfl
  have hvalues : (parts.items.insertionSort fun a b => a.1 ≤ b.1).map Prod.snd =
      (parts.items.insertionSort fun a b => a.1 ≤ b.1).map fun e =>
        (parts.get? e.1).getD [] := by
    refine List.map_congr_left fun e he => ?_
    have hmem : e ∈ parts.items := (List.perm_insertionSort _ _).mem_iff.1 he
    have hget : parts.get? e.1 = some e.2 := Dict.get?_eq_some.2 hmem
    rw [hget]
    rfl
  rw [joined, hvalues, ← hkeys, List.flatMap_def, List.map_map]
  rfl

variable {c : InMemorySmppCache} {ref_num : ℤ} {tot_num part_num : ℕ} {content : Str}

/-- The last part of a message drops its parts and puts it together. -/
theorem run_storeMultipart_last (env : ℕ → Reading)
    (h : (c.stored ref_num tot_num part_num content).length = tot_num) :
    (storeMultipart ref_num tot_num part_num content).run env c =
      ⟨.ok (some (joined (c.stored ref_num tot_num part_num content))), 0,
        c.dropParts ref_num tot_num⟩ := by
  rw [storeMultipart, run_get_bind]
  dsimp only
  rw [stored] at h ⊢
  rw [if_pos h]
  simp [dropParts]

/-- Any other part is stored. -/
theorem run_storeMultipart_more (env : ℕ → Reading)
    (h : (c.stored ref_num tot_num part_num content).length ≠ tot_num) :
    (storeMultipart ref_num tot_num part_num content).run env c =
      ⟨.ok none, 0, c.keepPart ref_num tot_num part_num content⟩ := by
  rw [storeMultipart, run_get_bind]
  dsimp only
  rw [keepPart]
  rw [stored] at h ⊢
  rw [if_neg h]
  simp

end InMemorySmppCache

open InMemorySmppCache

namespace ShortMessageProcessor

variable (self : ShortMessageProcessor) {pdu : DeliverSM}

/-- The addresses of a PDU are UTF-8. -/
def Addressed (pdu : DeliverSM) (to_addr from_addr : Str) : Prop :=
  decodeAddr pdu.destination_addr = .ok to_addr ∧ decodeAddr pdu.source_addr = .ok from_addr

/-- The message of a PDU, with a content. -/
def messageOf (to_addr from_addr content : Str) (r : Reading) : Message :=
  { Message.create to_addr from_addr [] .sms r with content := .string content }

/-- A decoded text becomes the message of its addresses. -/
theorem run_message {to_addr from_addr content : Str} (h : Addressed pdu to_addr from_addr)
    (env : ℕ → Reading) (c : InMemorySmppCache) :
    (message pdu (.ok content)).run env c =
      ⟨.ok (messageOf to_addr from_addr content (env 0)), 1, c⟩ := by
  rw [message, h.1, h.2]
  simp [messageOf]

/-- Without its addresses or its content there is no message. -/
theorem run_message_error {content : Except PyExc Str}
    (h : ¬ ((∃ to_addr from_addr, Addressed pdu to_addr from_addr) ∧ ∃ text, content = .ok text))
    (env : ℕ → Reading) (c : InMemorySmppCache) :
    ∃ e, (message pdu content).run env c = ⟨.error e, 0, c⟩ := by
  rw [message]
  cases hto : decodeAddr pdu.destination_addr with
  | error e => exact ⟨e, rfl⟩
  | ok to_addr =>
    rw [ofExcept_ok, pure_bind]
    cases hfrom : decodeAddr pdu.source_addr with
    | error e => exact ⟨e, rfl⟩
    | ok from_addr =>
      rw [ofExcept_ok, pure_bind]
      cases content with
      | error e => exact ⟨e, rfl⟩
      | ok text => exact absurd ⟨⟨to_addr, from_addr, hto, hfrom⟩, text, rfl⟩ h

section

variable {ref_num : ℤ} {tot_num part_num : ℕ} {content : Option Bytes} {text : Str}

/-- A part that completes no message is kept. -/
theorem run_handleMultipartMessage_more
    (hextract : extractMultipart pdu = some (ref_num, tot_num, part_num, content))
    (htext : self.decodeText content pdu.data_coding = .ok text) (env : ℕ → Reading)
    {c : InMemorySmppCache} (h : (c.stored ref_num tot_num part_num text).length ≠ tot_num) :
    (self.handleMultipartMessage pdu).run env c =
      ⟨.ok (true, none), 0, c.keepPart ref_num tot_num part_num text⟩ := by
  rw [handleMultipartMessage, hextract]
  dsimp only
  rw [htext, fromCoroutine_ok, ofExcept_ok, pure_bind, run_bind_ok (run_storeMultipart_more env h)]
  rfl

/-- A part that completes a message makes it, if it has addresses. -/
theorem run_handleMultipartMessage_last {to_addr from_addr : Str}
    (hextract : extractMultipart pdu = some (ref_num, tot_num, part_num, content))
    (htext : self.decodeText content pdu.data_coding = .ok text)
    (haddr : Addressed pdu to_addr from_addr) (env : ℕ → Reading) {c : InMemorySmppCache}
    (h : (c.stored ref_num tot_num part_num text).length = tot_num) :
    (self.handleMultipartMessage pdu).run env c =
      ⟨.ok (true, some (messageOf to_addr from_addr
        (joined (c.stored ref_num tot_num part_num text)) (env 0))), 1,
        c.dropParts ref_num tot_num⟩ := by
  rw [handleMultipartMessage, hextract]
  dsimp only
  rw [htext, fromCoroutine_ok, ofExcept_ok, pure_bind, run_bind_ok (run_storeMultipart_last env h)]
  dsimp only
  rw [run_bind_ok (run_message haddr _ _)]
  simp

/-- A part whose text cannot be decoded is not stored. -/
theorem run_handleMultipartMessage_undecodable {e : PyExc}
    (hextract : extractMultipart pdu = some (ref_num, tot_num, part_num, content))
    (htext : self.decodeText content pdu.data_coding = .error e) (env : ℕ → Reading)
    (c : InMemorySmppCache) :
    ∃ e', (self.handleMultipartMessage pdu).run env c = ⟨.error e', 0, c⟩ := by
  obtain ⟨e', he⟩ := fromCoroutine_error (α := Str) e
  refine ⟨e', ?_⟩
  rw [handleMultipartMessage, hextract]
  dsimp only
  rw [htext, he]
  rfl

/-- A part that completes a message without readable addresses drops the parts. -/
theorem run_handleMultipartMessage_unaddressed
    (hextract : extractMultipart pdu = some (ref_num, tot_num, part_num, content))
    (htext : self.decodeText content pdu.data_coding = .ok text)
    (haddr : ¬ ∃ to_addr from_addr, Addressed pdu to_addr from_addr) (env : ℕ → Reading)
    {c : InMemorySmppCache} (h : (c.stored ref_num tot_num part_num text).length = tot_num) :
    ∃ e, (self.handleMultipartMessage pdu).run env c =
      ⟨.error e, 0, c.dropParts ref_num tot_num⟩ := by
  obtain ⟨e, hmessage⟩ : ∃ e, (message pdu
      (.ok (joined (c.stored ref_num tot_num part_num text)))).run (later env 0)
        (c.dropParts ref_num tot_num) = ⟨.error e, 0, c.dropParts ref_num tot_num⟩ :=
    run_message_error (fun hboth => haddr hboth.1) _ _
  refine ⟨e, ?_⟩
  rw [handleMultipartMessage, hextract]
  dsimp only
  rw [htext, fromCoroutine_ok, ofExcept_ok, pure_bind, run_bind_ok (run_storeMultipart_last env h)]
  dsimp only
  rw [run_bind_error hmessage]
  rfl

/-- A part that completes no message gives none. -/
theorem run_handleDeliverSm_more
    (hextract : extractMultipart pdu = some (ref_num, tot_num, part_num, content))
    (htext : self.decodeText content pdu.data_coding = .ok text) (env : ℕ → Reading)
    {c : InMemorySmppCache} (h : (c.stored ref_num tot_num part_num text).length ≠ tot_num) :
    (self.handleDeliverSm pdu).run env c =
      ⟨.ok none, 0, c.keepPart ref_num tot_num part_num text⟩ := by
  rw [handleDeliverSm, run_bind_ok (self.run_handleMultipartMessage_more hextract htext env h)]
  rfl

/-- A part that completes a message gives it. -/
theorem run_handleDeliverSm_last {to_addr from_addr : Str}
    (hextract : extractMultipart pdu = some (ref_num, tot_num, part_num, content))
    (htext : self.decodeText content pdu.data_coding = .ok text)
    (haddr : Addressed pdu to_addr from_addr) (env : ℕ → Reading) {c : InMemorySmppCache}
    (h : (c.stored ref_num tot_num part_num text).length = tot_num) :
    (self.handleDeliverSm pdu).run env c =
      ⟨.ok (some (messageOf to_addr from_addr
          (joined (c.stored ref_num tot_num part_num text)) (env 0))), 1,
        c.dropParts ref_num tot_num⟩ := by
  rw [handleDeliverSm,
    run_bind_ok (self.run_handleMultipartMessage_last hextract htext haddr env h)]
  rfl

/-- A part whose text cannot be decoded is refused before it is stored. -/
theorem run_handleDeliverSm_undecodable {e : PyExc}
    (hextract : extractMultipart pdu = some (ref_num, tot_num, part_num, content))
    (htext : self.decodeText content pdu.data_coding = .error e) (env : ℕ → Reading)
    (c : InMemorySmppCache) : ∃ e', (self.handleDeliverSm pdu).run env c = ⟨.error e', 0, c⟩ := by
  obtain ⟨e', hparts⟩ := self.run_handleMultipartMessage_undecodable hextract htext env c
  exact ⟨e', by rw [handleDeliverSm, run_bind_error hparts]⟩

/-- A part that completes a message without readable addresses loses it. -/
theorem run_handleDeliverSm_unaddressed
    (hextract : extractMultipart pdu = some (ref_num, tot_num, part_num, content))
    (htext : self.decodeText content pdu.data_coding = .ok text)
    (haddr : ¬ ∃ to_addr from_addr, Addressed pdu to_addr from_addr) (env : ℕ → Reading)
    {c : InMemorySmppCache} (h : (c.stored ref_num tot_num part_num text).length = tot_num) :
    ∃ e, (self.handleDeliverSm pdu).run env c =
      ⟨.error e, 0, c.dropParts ref_num tot_num⟩ := by
  obtain ⟨e, hparts⟩ :=
    self.run_handleMultipartMessage_unaddressed hextract htext haddr env h
  exact ⟨e, by rw [handleDeliverSm, run_bind_error hparts]⟩

end

/-- A PDU that is no part leaves the cache as it is. -/
theorem run_handleDeliverSm_single (hextract : extractMultipart pdu = none) (env : ℕ → Reading)
    (c : InMemorySmppCache) :
    (self.handleDeliverSm pdu).run env c =
      ⟨((message pdu (fromCoroutine (self.getText pdu))).run env c).result.map some,
        ((message pdu (fromCoroutine (self.getText pdu))).run env c).used,
        ((message pdu (fromCoroutine (self.getText pdu))).run env c).state⟩ := by
  rw [handleDeliverSm, handleMultipartMessage, hextract]
  simp [handleShortMessage]

end ShortMessageProcessor

end Vumi2.Smpp
