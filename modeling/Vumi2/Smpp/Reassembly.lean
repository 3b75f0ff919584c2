import Mathlib.Data.List.Induction
import Mathlib.Data.List.Perm.Subperm
import Vumi2.Smpp.Parts

/-!
# Putting the parts of messages together

Parts of several messages arrive in any order. The cache keeps them under their reference number and
their total only, so parts of two messages with the same two numbers are taken for parts of one.

The history of the arrivals says what the cache should hold: the parts of each message of which some
have arrived but not all (`Pending`). This holds of the cache (`Caught`) as long as no part arrives
while another message with its two numbers is pending (`Exclusive`). Then every message that is put
together is one of those that were sent (`run_receive`).
-/

namespace Vumi2.Smpp

open Effect Eff Text InMemorySmppCache ShortMessageProcessor

/-- A message in parts, each in a PDU of its own. Part `k` has the number `k + 1`. -/
structure Multipart where
  ref_num : ℤ
  total : ℕ
  source_addr : Option Bytes
  destination_addr : Option Bytes
  /-- The PDU of a part. -/
  pdu : ℕ → DeliverSM
  /-- The octets of the text of a part. -/
  octets : ℕ → Option Bytes
  /-- Each PDU says which part it is. -/
  extract : ∀ k < total, extractMultipart (pdu k) = some (ref_num, total, k + 1, octets k)
  source : ∀ k < total, (pdu k).source_addr = source_addr
  destination : ∀ k < total, (pdu k).destination_addr = destination_addr

namespace Multipart

variable (receiver : ShortMessageProcessor) (m : Multipart)

/-- What the parts of a message are stored under. -/
def key : ℤ × ℕ := (m.ref_num, m.total)

/-- The text of a part, if it can be decoded. -/
def text? (k : ℕ) : Option Str := (receiver.decodeText (m.octets k) (m.pdu k).data_coding).toOption

/-- The text of a part, or nothing. -/
def text (k : ℕ) : Str := (m.text? receiver k).getD []

/-- The text of all parts in their order. -/
def fullText : Str := ((List.range m.total).map (m.text receiver)).flatten

/-- The dictionary of some parts, stored in this order. -/
def partsOf (ks : List ℕ) : Dict ℕ Str :=
  ks.foldl (fun parts k => parts.set (k + 1) (m.text receiver k)) Dict.empty

/-- The addresses of a message as texts. -/
def Between (to_addr from_addr : Str) : Prop :=
  decodeAddr m.destination_addr = .ok to_addr ∧ decodeAddr m.source_addr = .ok from_addr

variable {receiver m}

/-- One more part is set under its number. -/
theorem partsOf_append (ks : List ℕ) (k : ℕ) :
    m.partsOf receiver (ks ++ [k]) = (m.partsOf receiver ks).set (k + 1) (m.text receiver k) := by
  rw [partsOf, List.foldl_append]
  rfl

/-- Parts that are all different are stored in the order in which they come. -/
theorem items_partsOf {ks : List ℕ} (h : ks.Nodup) :
    (m.partsOf receiver ks).items = ks.map fun k => (k + 1, m.text receiver k) := by
  induction ks using List.reverseRecOn with
  | nil => rfl
  | append_singleton ks k ih =>
    obtain ⟨hks, _, hdisjoint⟩ := List.nodup_append.1 h
    have hk : k ∉ ks := fun hmem => hdisjoint k hmem k (by simp) rfl
    have hnew : (m.partsOf receiver ks).get? (k + 1) = none := by
      rw [Dict.get?_eq_none, Dict.keys, ih hks]
      simpa using hk
    rw [partsOf_append, Dict.items_set_of_not_mem _ hnew, ih hks]
    simp

/-- All parts of a message, joined in the order of their numbers, are its text. -/
theorem joined_partsOf {ks : List ℕ} (h : ks.Perm (List.range m.total)) :
    joined (m.partsOf receiver ks) = m.fullText receiver := by
  have hnodup : ks.Nodup := h.nodup_iff.2 List.nodup_range
  have hsort : ks.insertionSort (· ≤ ·) = List.range m.total := by
    have hperm : (ks.insertionSort (· ≤ ·)).Perm (List.range m.total) :=
      (List.perm_insertionSort _ ks).trans h
    exact hperm.eq_of_pairwise (fun _ _ _ _ => Nat.le_antisymm) (List.pairwise_insertionSort _ ks)
      List.pairwise_le_range
  have hitems : (ks.map fun k => (k + 1, m.text receiver k)).insertionSort (fun a b => a.1 ≤ b.1) =
      (ks.insertionSort (· ≤ ·)).map fun k => (k + 1, m.text receiver k) := by
    symm
    apply List.map_insertionSort
    intro a _ b _
    simp
  rw [joined, items_partsOf hnodup, hitems, hsort, List.map_map, fullText]
  rfl

end Multipart

/-! ## The history of arrivals -/

/-- An arrival: which message, and which of its parts. -/
abbrev Arrival (ι : Type) : Type := ι × ℕ

section

variable {ι : Type} [DecidableEq ι] (receiver : ShortMessageProcessor) (msgs : ι → Multipart)

/-- The text of the part that arrives, if it can be decoded. -/
def arrivedText? (a : Arrival ι) : Option Str := (msgs a.1).text? receiver a.2

/-- The parts of a message that arrived and could be decoded, in the order of their arrival. -/
def got (done : List (Arrival ι)) (i : ι) : List ℕ :=
  (done.filter fun a => a.1 = i ∧ (arrivedText? receiver msgs a).isSome).map Prod.snd

/-- Some parts of the message have come, but not all. -/
def Pending (done : List (Arrival ι)) (i : ι) : Prop :=
  got receiver msgs done i ≠ [] ∧ (got receiver msgs done i).length < (msgs i).total

instance (done : List (Arrival ι)) (i : ι) : Decidable (Pending receiver msgs done i) :=
  inferInstanceAs (Decidable (_ ∧ _))

/-- The part that arrives is the last one of its message. -/
def Completes (done : List (Arrival ι)) (a : Arrival ι) : Prop :=
  (arrivedText? receiver msgs a).isSome = true ∧
    (got receiver msgs done a.1).length + 1 = (msgs a.1).total

/-- No other message with the same two numbers is pending. -/
def Unshared (done : List (Arrival ι)) (a : Arrival ι) : Prop :=
  ∀ j, j ≠ a.1 → (msgs j).key = (msgs a.1).key → ¬ Pending receiver msgs done j

/-- Every arrival, after those of `done`, finds no other message with its two numbers pending. -/
def Exclusive (done : List (Arrival ι)) : List (Arrival ι) → Prop
  | [] => True
  | a :: rest => Unshared receiver msgs done a ∧ Exclusive (done ++ [a]) rest

variable {receiver msgs} {done : List (Arrival ι)} {a : Arrival ι}

/-- A part that was got has arrived. -/
theorem mem_got {i : ι} {k : ℕ} (h : k ∈ got receiver msgs done i) : (i, k) ∈ done := by
  obtain ⟨⟨j, l⟩, hmem, rfl⟩ := List.mem_map.1 h
  obtain ⟨hdone, hi⟩ := List.mem_filter.1 hmem
  obtain ⟨rfl, _⟩ : j = i ∧ (arrivedText? receiver msgs (j, l)).isSome := by simpa using hi
  exact hdone

/-- No part was got twice. -/
theorem nodup_got (h : done.Nodup) (i : ι) : (got receiver msgs done i).Nodup := by
  apply (h.filter _).map_on
  rintro ⟨j, k⟩ hj ⟨j', k'⟩ hj' hk
  obtain ⟨rfl, _⟩ : j = i ∧ (arrivedText? receiver msgs (j, k)).isSome = true := by
    simpa using (List.mem_filter.1 hj).2
  obtain ⟨rfl, _⟩ : j' = j ∧ (arrivedText? receiver msgs (j', k')).isSome = true := by
    simpa using (List.mem_filter.1 hj').2
  rw [show k = k' from hk]

/-- A part that can be decoded is the last one that its message has got. -/
theorem got_append_self (h : (arrivedText? receiver msgs a).isSome = true) :
    got receiver msgs (done ++ [a]) a.1 = got receiver msgs done a.1 ++ [a.2] := by
  simp [got, List.filter_append, h]

/-- An arrival changes nothing for the other messages, and nothing at all if it cannot be
decoded. -/
theorem got_append_of_ne {i : ι} (h : i ≠ a.1 ∨ arrivedText? receiver msgs a = none) :
    got receiver msgs (done ++ [a]) i = got receiver msgs done i := by
  have hnot : ¬ (a.1 = i ∧ (arrivedText? receiver msgs a).isSome = true) := by
    rintro ⟨rfl, hsome⟩
    rcases h with h | h
    · exact h rfl
    · rw [h] at hsome
      cases hsome
  rw [got, got, List.filter_append, List.filter_singleton]
  simp [hnot]

/-- An arrival changes nothing for other messages, nor if it cannot be decoded. -/
theorem pending_append_of_ne {i : ι} (h : i ≠ a.1 ∨ arrivedText? receiver msgs a = none) :
    Pending receiver msgs (done ++ [a]) i ↔ Pending receiver msgs done i := by
  rw [Pending, Pending, got_append_of_ne h]

/-- While a part is missing, fewer than all have come. -/
theorem length_got_lt (hvalid : ∀ b ∈ done, b.2 < (msgs b.1).total) (hnodup : done.Nodup)
    (ha : a.2 < (msgs a.1).total) (hnew : a ∉ done) :
    (got receiver msgs done a.1).length < (msgs a.1).total := by
  have hnodup' : (a.2 :: got receiver msgs done a.1).Nodup :=
    List.nodup_cons.2 ⟨fun h => hnew (mem_got h), nodup_got hnodup a.1⟩
  have hsubset : a.2 :: got receiver msgs done a.1 ⊆ List.range (msgs a.1).total := by
    intro k hk
    rcases List.mem_cons.1 hk with rfl | hk
    · exact List.mem_range.2 ha
    · exact List.mem_range.2 (hvalid _ (mem_got hk))
  have hlength := (List.subperm_of_subset hnodup' hsubset).length_le
  rw [List.length_cons, List.length_range] at hlength
  omega

/-! ## What the cache holds -/

/-- The cache holds the parts of the messages that are pending after `done`, and otherwise what it
held at first. -/
structure Caught (receiver : ShortMessageProcessor) (msgs : ι → Multipart)
    (start : Dict (ℤ × ℕ) (Dict ℕ Str)) (done : List (Arrival ι)) (c : InMemorySmppCache) :
    Prop where
  pending : ∀ i, Pending receiver msgs done i →
    c.multipart.get? (msgs i).key = some ((msgs i).partsOf receiver (got receiver msgs done i))
  others : ∀ key, (∀ i, (msgs i).key = key → ¬ Pending receiver msgs done i) →
    c.multipart.get? key = start.get? key

variable {start : Dict (ℤ × ℕ) (Dict ℕ Str)} {c : InMemorySmppCache}

/-- Before anything has arrived, the cache holds what it held at first. -/
theorem caught_nil (h : c.multipart = start) : Caught receiver msgs start [] c := by
  constructor
  · rintro i ⟨hne, _⟩
    exact absurd rfl hne
  · intro key _
    rw [h]

/-- A part that cannot be decoded changes nothing. -/
theorem Caught.undecodable (h : Caught receiver msgs start done c)
    (ha : arrivedText? receiver msgs a = none) : Caught receiver msgs start (done ++ [a]) c := by
  constructor
  · intro i hi
    rw [got_append_of_ne (.inr ha)]
    exact h.pending i ((pending_append_of_ne (.inr ha)).1 hi)
  · intro key hkey
    refine h.others key fun i hi => ?_
    rw [← pending_append_of_ne (.inr ha)]
    exact hkey i hi

/-- What an arrival must meet: it is a part of its message that has not come before, and no other
message with the same numbers is pending. -/
structure Fits (receiver : ShortMessageProcessor) (msgs : ι → Multipart)
    (start : Dict (ℤ × ℕ) (Dict ℕ Str)) (done : List (Arrival ι)) (a : Arrival ι) : Prop where
  valid : ∀ b ∈ done, b.2 < (msgs b.1).total
  nodup : done.Nodup
  part : a.2 < (msgs a.1).total
  new : a ∉ done
  unshared : Unshared receiver msgs done a
  free : start.get? (msgs a.1).key = none

/-- A new arrival is none of those before. -/
theorem Fits.nodup_append (h : Fits receiver msgs start done a) : (done ++ [a]).Nodup := by
  rw [List.nodup_append]
  refine ⟨h.nodup, List.nodup_singleton _, ?_⟩
  rintro b hb _ hmem rfl
  obtain rfl := List.mem_singleton.1 hmem
  exact h.new hb

/-- The part that arrives joins the earlier parts of its own message. -/
theorem Caught.stored_eq (h : Caught receiver msgs start done c)
    (hfits : Fits receiver msgs start done a) (ha : (arrivedText? receiver msgs a).isSome = true) :
    c.stored (msgs a.1).ref_num (msgs a.1).total (a.2 + 1) ((msgs a.1).text receiver a.2) =
      (msgs a.1).partsOf receiver (got receiver msgs (done ++ [a]) a.1) := by
  have hheld : (c.multipart.get? (msgs a.1).key).getD Dict.empty =
      (msgs a.1).partsOf receiver (got receiver msgs done a.1) := by
    by_cases hpending : Pending receiver msgs done a.1
    · rw [h.pending a.1 hpending]
      rfl
    · -- Then none of its parts has come, and nothing is stored under its key.
      have hlt : (got receiver msgs done a.1).length < (msgs a.1).total :=
        length_got_lt hfits.valid hfits.nodup hfits.part hfits.new
      have hgot : got receiver msgs done a.1 = [] := by
        by_contra hne
        exact hpending ⟨hne, hlt⟩
      have hnone : c.multipart.get? (msgs a.1).key = none := by
        rw [h.others _ fun i hi => ?_, hfits.free]
        by_cases heq : i = a.1
        · rw [heq]
          exact hpending
        · exact hfits.unshared i heq hi
      rw [hnone, hgot]
      rfl
  rw [stored, show ((msgs a.1).ref_num, (msgs a.1).total) = (msgs a.1).key from rfl, hheld,
    got_append_self ha, Multipart.partsOf_append]

/-- The stored parts are those that were got, and one more. -/
theorem Caught.length_stored (h : Caught receiver msgs start done c)
    (hfits : Fits receiver msgs start done a) (ha : (arrivedText? receiver msgs a).isSome = true) :
    (c.stored (msgs a.1).ref_num (msgs a.1).total (a.2 + 1) ((msgs a.1).text receiver a.2)).length =
      (got receiver msgs done a.1).length + 1 := by
  have hnodup : (got receiver msgs (done ++ [a]) a.1).Nodup := nodup_got hfits.nodup_append a.1
  rw [h.stored_eq hfits ha, Dict.length, Multipart.items_partsOf hnodup, List.length_map,
    got_append_self ha, List.length_append]
  rfl

/-- A part that is not the last one is kept. -/
theorem Caught.keepPart (h : Caught receiver msgs start done c)
    (hfits : Fits receiver msgs start done a) (ha : (arrivedText? receiver msgs a).isSome = true)
    (hmore : ¬ Completes receiver msgs done a) :
    Caught receiver msgs start (done ++ [a]) (c.keepPart (msgs a.1).ref_num (msgs a.1).total
      (a.2 + 1) ((msgs a.1).text receiver a.2)) := by
  have hlt : (got receiver msgs done a.1).length < (msgs a.1).total :=
    length_got_lt hfits.valid hfits.nodup hfits.part hfits.new
  have hpending : Pending receiver msgs (done ++ [a]) a.1 := by
    have hne : (got receiver msgs done a.1).length + 1 ≠ (msgs a.1).total := fun h => hmore ⟨ha, h⟩
    constructor
    · rw [got_append_self ha]
      simp
    · rw [got_append_self ha, List.length_append, List.length_singleton]
      omega
  constructor
  · intro i hi
    show (c.multipart.set (msgs a.1).key _).get? (msgs i).key = _
    -- A pending message has its own key, so only that of the arrival changes.
    by_cases heq : i = a.1
    · rw [heq, Dict.get?_set_self, h.stored_eq hfits ha]
    · rw [pending_append_of_ne (.inl heq)] at hi
      have hkey : (msgs i).key ≠ (msgs a.1).key := fun hkey => hfits.unshared i heq hkey hi
      rw [Dict.get?_set_of_ne _ _ hkey, got_append_of_ne (.inl heq)]
      exact h.pending i hi
  · intro key hothers
    have hkey : key ≠ (msgs a.1).key := fun hkey => hothers a.1 hkey.symm hpending
    show (c.multipart.set (msgs a.1).key _).get? key = _
    rw [Dict.get?_set_of_ne _ _ hkey]
    refine h.others key fun i hi => ?_
    have hne : i ≠ a.1 := fun heq => hkey (by rw [← hi, heq])
    rw [← pending_append_of_ne (.inl hne)]
    exact hothers i hi

/-- With its last part, the parts of a message are dropped. -/
theorem Caught.dropParts (h : Caught receiver msgs start done c)
    (hfits : Fits receiver msgs start done a) (hlast : Completes receiver msgs done a) :
    Caught receiver msgs start (done ++ [a]) (c.dropParts (msgs a.1).ref_num (msgs a.1).total) := by
  obtain ⟨ha, hlength⟩ := hlast
  have hpending : ¬ Pending receiver msgs (done ++ [a]) a.1 := by
    rintro ⟨_, hlt⟩
    rw [got_append_self ha, List.length_append, List.length_singleton] at hlt
    omega
  constructor
  · intro i hi
    have heq : i ≠ a.1 := fun heq => hpending (heq ▸ hi)
    rw [pending_append_of_ne (.inl heq)] at hi
    have hkey : (msgs i).key ≠ (msgs a.1).key := fun hkey => hfits.unshared i heq hkey hi
    show (c.multipart.erase (msgs a.1).key).get? (msgs i).key = _
    rw [Dict.get?_erase_of_ne _ hkey, got_append_of_ne (.inl heq)]
    exact h.pending i hi
  · intro key hothers
    show (c.multipart.erase (msgs a.1).key).get? key = _
    by_cases hkey : key = (msgs a.1).key
    · -- The key is as free as it was at first.
      rw [hkey, Dict.get?_erase_self, hfits.free]
    · rw [Dict.get?_erase_of_ne _ hkey]
      refine h.others key fun i hi => ?_
      have hne : i ≠ a.1 := fun heq => hkey (by rw [← hi, heq])
      rw [← pending_append_of_ne (.inl hne)]
      exact hothers i hi

/-! ## What each arrival is answered with -/

/-- What `handle_deliver_sm` makes of an arrival, after those of `done`. -/
structure Answers (receiver : ShortMessageProcessor) (msgs : ι → Multipart)
    (done : List (Arrival ι)) (a : Arrival ι) (r : Except PyExc (Option Message)) : Prop where
  undecodable : arrivedText? receiver msgs a = none → ∃ e, r = .error e
  more : (arrivedText? receiver msgs a).isSome = true → ¬ Completes receiver msgs done a →
    r = .ok none
  last : Completes receiver msgs done a → ∀ to_addr from_addr,
    (msgs a.1).Between to_addr from_addr →
      ∃ reading, r =
        .ok (some (messageOf to_addr from_addr ((msgs a.1).fullText receiver) reading))
  unaddressed : Completes receiver msgs done a →
    (¬ ∃ to_addr from_addr, (msgs a.1).Between to_addr from_addr) → ∃ e, r = .error e

/-- With the last part all of them have come. -/
theorem Fits.perm_got (hfits : Fits receiver msgs start done a)
    (hlast : Completes receiver msgs done a) :
    (got receiver msgs (done ++ [a]) a.1).Perm (List.range (msgs a.1).total) := by
  have hsubset : got receiver msgs (done ++ [a]) a.1 ⊆ List.range (msgs a.1).total := by
    intro k hk
    rw [got_append_self hlast.1, List.mem_append, List.mem_singleton] at hk
    rcases hk with hk | rfl
    · exact List.mem_range.2 (hfits.valid _ (mem_got hk))
    · exact List.mem_range.2 hfits.part
  apply (List.subperm_of_subset (nodup_got hfits.nodup_append a.1) hsubset).perm_of_length_le
  rw [got_append_self hlast.1, List.length_append, List.length_singleton, List.length_range,
    hlast.2]

/-- A part has addresses if its message has. -/
theorem Fits.addressed_iff (hfits : Fits receiver msgs start done a) {to_addr from_addr : Str} :
    Addressed ((msgs a.1).pdu a.2) to_addr from_addr ↔ (msgs a.1).Between to_addr from_addr := by
  rw [Addressed, (msgs a.1).destination a.2 hfits.part, (msgs a.1).source a.2 hfits.part]
  rfl

/-- An arrival that cannot be decoded raises. -/
theorem Caught.step_undecodable (h : Caught receiver msgs start done c)
    (hfits : Fits receiver msgs start done a) {e : PyExc}
    (hdecode :
      receiver.decodeText ((msgs a.1).octets a.2) ((msgs a.1).pdu a.2).data_coding = .error e)
    (env : ℕ → Reading) :
    Answers receiver msgs done a
        ((receiver.handleDeliverSm ((msgs a.1).pdu a.2)).run env c).result ∧
      Caught receiver msgs start (done ++ [a])
        ((receiver.handleDeliverSm ((msgs a.1).pdu a.2)).run env c).state := by
  have hnone : arrivedText? receiver msgs a = none := by
    rw [arrivedText?, Multipart.text?, hdecode]
    rfl
  have hnot : ¬ (arrivedText? receiver msgs a).isSome = true := by
    rw [hnone]
    exact Bool.false_ne_true
  obtain ⟨e', hrun⟩ :=
    run_handleDeliverSm_undecodable receiver ((msgs a.1).extract a.2 hfits.part) hdecode env c
  rw [hrun]
  exact ⟨⟨fun _ => ⟨e', rfl⟩, fun hsome => absurd hsome hnot, fun hlast => absurd hlast.1 hnot,
    fun hlast => absurd hlast.1 hnot⟩, h.undecodable hnone⟩

omit [DecidableEq ι] in
/-- A part that was decoded has its text. -/
theorem text_of_arrivedText? {text : Str} (hsome : arrivedText? receiver msgs a = some text) :
    (msgs a.1).text receiver a.2 = text := by
  rw [arrivedText?] at hsome
  rw [Multipart.text, hsome]
  rfl

/-- The last arrival of a message is answered with it, if it is addressed. -/
theorem Caught.step_last (h : Caught receiver msgs start done c)
    (hfits : Fits receiver msgs start done a) (hlast : Completes receiver msgs done a) {text : Str}
    (hdecode :
      receiver.decodeText ((msgs a.1).octets a.2) ((msgs a.1).pdu a.2).data_coding = .ok text)
    (hsome : arrivedText? receiver msgs a = some text) (env : ℕ → Reading) :
    Answers receiver msgs done a
        ((receiver.handleDeliverSm ((msgs a.1).pdu a.2)).run env c).result ∧
      Caught receiver msgs start (done ++ [a])
        ((receiver.handleDeliverSm ((msgs a.1).pdu a.2)).run env c).state := by
  have hextract := (msgs a.1).extract a.2 hfits.part
  have htext := text_of_arrivedText? hsome
  have hnone : ¬ arrivedText? receiver msgs a = none := by
    rw [hsome]
    exact Option.some_ne_none text
  have hlength := h.length_stored hfits hlast.1
  rw [htext, hlast.2] at hlength
  have hjoined : joined (c.stored (msgs a.1).ref_num (msgs a.1).total (a.2 + 1) text) =
      (msgs a.1).fullText receiver := by
    rw [← htext, h.stored_eq hfits hlast.1]
    exact Multipart.joined_partsOf (hfits.perm_got hlast)
  have hdrop := h.dropParts hfits hlast
  by_cases haddr : ∃ to_addr from_addr, Addressed ((msgs a.1).pdu a.2) to_addr from_addr
  · obtain ⟨to_addr, from_addr, haddr⟩ := haddr
    rw [run_handleDeliverSm_last receiver hextract hdecode haddr env hlength, hjoined]
    refine ⟨⟨fun h => absurd h hnone, fun _ hmore => absurd hlast hmore,
      fun _ to' from' hbetween => ?_, fun _ hnot => ?_⟩, hdrop⟩
    · -- Every part of the message has the same addresses.
      have haddr' := hfits.addressed_iff.2 hbetween
      have hto : to_addr = to' := by simpa using haddr.1.symm.trans haddr'.1
      have hfrom : from_addr = from' := by simpa using haddr.2.symm.trans haddr'.2
      exact ⟨env 0, by rw [hto, hfrom]⟩
    · exact absurd ⟨to_addr, from_addr, hfits.addressed_iff.1 haddr⟩ hnot
  · -- The parts are dropped before the addresses are looked at.
    obtain ⟨e, hrun⟩ :=
      run_handleDeliverSm_unaddressed receiver hextract hdecode haddr env hlength
    rw [hrun]
    refine ⟨⟨fun _ => ⟨e, rfl⟩, fun _ hmore => absurd hlast hmore,
      fun _ to' from' hbetween => ?_, fun _ _ => ⟨e, rfl⟩⟩, hdrop⟩
    exact absurd ⟨to', from', hfits.addressed_iff.2 hbetween⟩ haddr

/-- An arrival that is not the last of its message is kept. -/
theorem Caught.step_more (h : Caught receiver msgs start done c)
    (hfits : Fits receiver msgs start done a) (hnot : ¬ Completes receiver msgs done a) {text : Str}
    (hdecode :
      receiver.decodeText ((msgs a.1).octets a.2) ((msgs a.1).pdu a.2).data_coding = .ok text)
    (hsome : arrivedText? receiver msgs a = some text) (env : ℕ → Reading) :
    Answers receiver msgs done a
        ((receiver.handleDeliverSm ((msgs a.1).pdu a.2)).run env c).result ∧
      Caught receiver msgs start (done ++ [a])
        ((receiver.handleDeliverSm ((msgs a.1).pdu a.2)).run env c).state := by
  have htext := text_of_arrivedText? hsome
  have hisSome : (arrivedText? receiver msgs a).isSome = true := by rw [hsome]; rfl
  have hnone : ¬ arrivedText? receiver msgs a = none := by
    rw [hsome]
    exact Option.some_ne_none text
  have hlength := h.length_stored hfits hisSome
  have hkeep := h.keepPart hfits hisSome hnot
  rw [htext] at hlength hkeep
  -- With this part there are still fewer than the total.
  have hmore : (c.stored (msgs a.1).ref_num (msgs a.1).total (a.2 + 1) text).length ≠
      (msgs a.1).total := fun heq => hnot ⟨hisSome, hlength.symm.trans heq⟩
  rw [run_handleDeliverSm_more receiver ((msgs a.1).extract a.2 hfits.part) hdecode env hmore]
  exact ⟨⟨fun h => absurd h hnone, fun _ _ => rfl, fun hlast => absurd hlast hnot,
    fun hlast => absurd hlast hnot⟩, hkeep⟩

/-- One arrival: it is answered as it should be, and the cache holds what it should hold. -/
theorem Caught.step (h : Caught receiver msgs start done c)
    (hfits : Fits receiver msgs start done a) (env : ℕ → Reading) :
    Answers receiver msgs done a
        ((receiver.handleDeliverSm ((msgs a.1).pdu a.2)).run env c).result ∧
      Caught receiver msgs start (done ++ [a])
        ((receiver.handleDeliverSm ((msgs a.1).pdu a.2)).run env c).state := by
  cases hdecode : receiver.decodeText ((msgs a.1).octets a.2) ((msgs a.1).pdu a.2).data_coding with
  | error e => exact h.step_undecodable hfits hdecode env
  | ok text =>
    have hsome : arrivedText? receiver msgs a = some text := by
      rw [arrivedText?, Multipart.text?, hdecode]
      rfl
    by_cases hlast : Completes receiver msgs done a
    · exact h.step_last hfits hlast hdecode hsome env
    · exact h.step_more hfits hlast hdecode hsome env

/-- If all parts can be decoded, the last one is the one with which all of them have come. -/
theorem Fits.completes_iff (hfits : Fits receiver msgs start done a)
    (hsome : ∀ b ∈ done ++ [a], (arrivedText? receiver msgs b).isSome = true) :
    Completes receiver msgs done a ↔ ∀ k < (msgs a.1).total, (a.1, k) ∈ done ++ [a] := by
  have ha : (arrivedText? receiver msgs a).isSome = true := hsome a (by simp)
  constructor
  · intro hlast k hk
    exact mem_got ((hfits.perm_got hlast).mem_iff.2 (List.mem_range.2 hk))
  · intro hall
    refine ⟨ha, ?_⟩
    have hsubset : List.range (msgs a.1).total ⊆ got receiver msgs (done ++ [a]) a.1 := by
      intro k hk
      have hmem := hall k (List.mem_range.1 hk)
      have hdecodes := hsome _ hmem
      exact List.mem_map.2 ⟨(a.1, k), List.mem_filter.2 ⟨hmem, by simpa using hdecodes⟩, rfl⟩
    have hle := (List.subperm_of_subset List.nodup_range hsubset).length_le
    have hlt : (got receiver msgs done a.1).length < (msgs a.1).total :=
      length_got_lt hfits.valid hfits.nodup hfits.part hfits.new
    rw [got_append_self ha, List.length_append, List.length_range, List.length_singleton] at hle
    omega

/-- Messages with different numbers never disturb each other. -/
theorem exclusive_of_injective (hkeys : Function.Injective fun i => (msgs i).key)
    (done rest : List (Arrival ι)) : Exclusive receiver msgs done rest := by
  induction rest generalizing done with
  | nil => trivial
  | cons a rest ih => exact ⟨fun j hj hkey => absurd (hkeys hkey) hj, ih _⟩

/-- Calls `handle_deliver_sm` with one PDU after another. -/
def receive (receiver : ShortMessageProcessor) :
    List DeliverSM → Py InMemorySmppCache (List (Except PyExc (Option Message)))
  | [] => pure []
  | pdu :: pdus => do
    let r ← attempt (receiver.handleDeliverSm pdu)
    let rs ← receive receiver pdus
    pure (r :: rs)

/-- The PDUs of a list of arrivals. -/
def pdusOf (msgs : ι → Multipart) (arrivals : List (Arrival ι)) : List DeliverSM :=
  arrivals.map fun a => (msgs a.1).pdu a.2

/-- All arrivals: each is answered as it should be after those before it, and in the end the cache
holds what it should hold. -/
theorem run_receive {rest : List (Arrival ι)} (h : Caught receiver msgs start done c)
    (hvalid : ∀ b ∈ done ++ rest, b.2 < (msgs b.1).total) (hnodup : (done ++ rest).Nodup)
    (hexclusive : Exclusive receiver msgs done rest)
    (hfree : ∀ b ∈ rest, start.get? (msgs b.1).key = none) (env : ℕ → Reading) :
    ∃ rs, ((receive receiver (pdusOf msgs rest)).run env c).result = .ok rs ∧
      rs.length = rest.length ∧
      (∀ n a, rest[n]? = some a → ∃ r, rs[n]? = some r ∧
        Fits receiver msgs start (done ++ rest.take n) a ∧
        Answers receiver msgs (done ++ rest.take n) a r) ∧
      Caught receiver msgs start (done ++ rest)
        ((receive receiver (pdusOf msgs rest)).run env c).state := by
  induction rest generalizing done env c with
  | nil =>
    refine ⟨[], rfl, rfl, fun n a ha => ?_, ?_⟩
    · simp at ha
    · rw [List.append_nil]
      exact h
  | cons a rest ih =>
    obtain ⟨hunshared, hexclusive⟩ := hexclusive
    have hdone := List.nodup_append.1 hnodup
    have hfits : Fits receiver msgs start done a :=
      { valid := fun b hb => hvalid b (List.mem_append_left _ hb)
        nodup := hdone.1
        part := hvalid a (by simp)
        new := fun hmem => hdone.2.2 a hmem a (by simp) rfl
        unshared := hunshared
        free := hfree a (by simp) }
    -- The first arrival is answered as it should be; the others follow from the cache it leaves.
    obtain ⟨hanswers, hcaught⟩ := h.step hfits env
    have happend : done ++ a :: rest = (done ++ [a]) ++ rest := by simp
    rw [happend] at hvalid hnodup
    obtain ⟨rs, hrs, hlength, hrest, hend⟩ := ih hcaught hvalid hnodup hexclusive
      (fun b hb => hfree b (List.mem_cons_of_mem _ hb))
      (later env ((receiver.handleDeliverSm ((msgs a.1).pdu a.2)).run env c).used)
    have hrun : (receive receiver (pdusOf msgs (a :: rest))).run env c =
        ((attempt (receiver.handleDeliverSm ((msgs a.1).pdu a.2))) >>= fun r =>
          receive receiver (pdusOf msgs rest) >>= fun rs => pure (r :: rs)).run env c := rfl
    rw [hrun, run_bind_ok (run_attempt _ _ _), run_bind, hrs]
    refine ⟨_, rfl, ?_, fun n b hb => ?_, ?_⟩
    · rw [List.length_cons, List.length_cons, hlength]
    · cases n with
      | zero =>
        obtain rfl : a = b := by simpa using hb
        rw [List.take_zero, List.append_nil]
        exact ⟨_, rfl, hfits, hanswers⟩
      | succ n =>
        rw [List.take_succ_cons, List.append_cons]
        obtain ⟨r, hr, hanswer⟩ := hrest n b (by simpa using hb)
        exact ⟨r, by simpa using hr, hanswer⟩
    · rw [happend]
      exact hend

/-! ## Conversations -/

/-- The message is between the addresses of `m`, and its content is text of parts of `m` only. -/
def OwnText (receiver : ShortMessageProcessor) (m : Multipart) (msg : Message) : Prop :=
  m.Between msg.to_addr msg.from_addr ∧
    ∃ ks : List ℕ, (∀ k ∈ ks, k < m.total) ∧
      msg.content = .string ((ks.map (m.text receiver)).flatten)

/-- Every message that is put together belongs to one of those that were sent. -/
def NeverMixes (receiver : ShortMessageProcessor) (msgs : ι → Multipart)
    (arrivals : List (Arrival ι)) (env : ℕ → Reading) (c : InMemorySmppCache) : Prop :=
  ∃ rs, ((receive receiver (pdusOf msgs arrivals)).run env c).result = .ok rs ∧
    ∀ msg, .ok (some msg) ∈ rs → ∃ i, OwnText receiver (msgs i) msg

/-- An answer that is a message belongs to the message of the part that arrived. -/
theorem Answers.ownText {r : Except PyExc (Option Message)}
    (h : Answers receiver msgs done a r) {msg : Message} (hr : r = .ok (some msg)) :
    OwnText receiver (msgs a.1) msg := by
  -- An answer that is a message comes with the last part, if that is decoded and addressed.
  by_cases hlast : Completes receiver msgs done a
  · by_cases haddr : ∃ to_addr from_addr, (msgs a.1).Between to_addr from_addr
    · obtain ⟨to_addr, from_addr, hbetween⟩ := haddr
      obtain ⟨reading, hmsg⟩ := h.last hlast to_addr from_addr hbetween
      rw [hr] at hmsg
      cases hmsg
      exact ⟨hbetween, List.range (msgs a.1).total, fun k hk => List.mem_range.1 hk, rfl⟩
    · obtain ⟨e, he⟩ := h.unaddressed hlast haddr
      rw [hr] at he
      cases he
  · cases htext : arrivedText? receiver msgs a with
    | none =>
      obtain ⟨e, he⟩ := h.undecodable htext
      rw [hr] at he
      cases he
    | some text =>
      have hmore := h.more (by rw [htext]; rfl) hlast
      rw [hr] at hmore
      cases hmore

/-- Conversations are not mixed as long as no part arrives while another message with its two
numbers is pending. -/
theorem neverMixes_of_exclusive {arrivals : List (Arrival ι)} {env : ℕ → Reading}
    {c : InMemorySmppCache} (hc : c.multipart = Dict.empty)
    (hvalid : ∀ a ∈ arrivals, a.2 < (msgs a.1).total) (hnodup : arrivals.Nodup)
    (hexclusive : Exclusive receiver msgs [] arrivals) :
    NeverMixes receiver msgs arrivals env c := by
  obtain ⟨rs, hrs, hlength, hanswers, _⟩ := run_receive (caught_nil hc) hvalid hnodup hexclusive
    (fun _ _ => Dict.get?_empty _) env
  refine ⟨rs, hrs, fun msg hmsg => ?_⟩
  obtain ⟨n, hn, hget⟩ := List.getElem_of_mem hmsg
  have hn' : n < arrivals.length := by rwa [← hlength]
  have harrival : arrivals[n]? = some arrivals[n] := List.getElem?_eq_getElem hn'
  obtain ⟨r, hr, _, hanswer⟩ := hanswers n _ harrival
  rw [List.getElem?_eq_getElem hn, Option.some.injEq] at hr
  exact ⟨_, hanswer.ownText (hr.symm.trans hget)⟩

end

/-- A message in two parts of one octet each, by its SAR fields, from an address of one octet. -/
def twoParts (source : UInt8) (octet : ℕ → UInt8) : Multipart where
  ref_num := 7
  total := 2
  source_addr := some [source]
  destination_addr := some [0x39]
  pdu k :=
    { seqNum := k
      source_addr := some [source]
      destination_addr := some [0x39]
      esm_class := .DEFAULT
      data_coding := .default .LATIN_1
      short_message := some [octet k]
      message_payload := none
      sar_msg_ref_num := some 7
      sar_total_segments := some 2
      sar_segment_seqnum := some (k + 1)
      receipted_message_id := none
      message_state := none }
  octets k := some [octet k]
  extract _ _ := rfl
  source _ _ := rfl
  destination _ _ := rfl

/-- Two handsets that chose the same reference number: `1` sends `ab`, and `2` sends `AB`. -/
def twoHandsets : Bool → Multipart
  | false => twoParts 0x31 fun k => if k = 0 then 0x61 else 0x62
  | true => twoParts 0x32 fun k => if k = 0 then 0x41 else 0x42

/-- One message after the other is put together as it was sent. -/
theorem neverMixes_in_turn :
    NeverMixes .default twoHandsets [(false, 0), (false, 1), (true, 1), (true, 0)]
      (fun _ => ⟨0, str "e", DateTime.min⟩) (.new 86400) := by
  refine neverMixes_of_exclusive rfl (by decide) (by decide) ?_
  have h1 : Unshared .default twoHandsets [] (false, 0) := by unfold Unshared; decide
  have h2 : Unshared .default twoHandsets [(false, 0)] (false, 1) := by unfold Unshared; decide
  have h3 : Unshared .default twoHandsets [(false, 0), (false, 1)] (true, 1) := by
    unfold Unshared; decide
  have h4 : Unshared .default twoHandsets [(false, 0), (false, 1), (true, 1)] (true, 0) := by
    unfold Unshared; decide
  exact ⟨h1, h2, h3, h4, trivial⟩

/-- The first part of one message and the second part of the other are taken for one message. -/
theorem same_reference_mixes :
    ¬ NeverMixes .default twoHandsets [(false, 0), (true, 1)]
      (fun _ => ⟨0, str "e", DateTime.min⟩) (.new 86400) := by
  rintro ⟨rs, hrs, hown⟩
  have hresult : ((receive .default (pdusOf twoHandsets [(false, 0), (true, 1)])).run
      (fun _ => ⟨0, str "e", DateTime.min⟩) (.new 86400)).result =
        .ok [.ok none, .ok (some (messageOf (str "9") (str "2") (str "aB")
          ⟨0, str "e", DateTime.min⟩))] := by
    rfl
  rw [hresult] at hrs
  cases hrs
  obtain ⟨i, ⟨_, hfrom⟩, ks, hks, hcontent⟩ := hown _ (List.mem_cons_of_mem _ List.mem_cons_self)
  cases i with
  | false =>
    have hother : decodeAddr (twoHandsets false).source_addr ≠ .ok (str "2") := by decide
    exact hother hfrom
  | true =>
    -- The text has an `a`, which no part of the second message has.
    have hflat : str "aB" = (ks.map ((twoHandsets true).text .default)).flatten :=
      Json.string.inj hcontent
    have hmem : ofChar 'a' ∈ (ks.map ((twoHandsets true).text .default)).flatten := by
      rw [← hflat]
      decide
    obtain ⟨t, ht, hin⟩ := List.mem_flatten.1 hmem
    obtain ⟨k, hk, rfl⟩ := List.mem_map.1 ht
    have hk2 : k < 2 := hks k hk
    have hno : ∀ l < 2, ofChar 'a' ∉ (twoHandsets true).text .default l := by decide
    exact hno k hk2 hin

end Vumi2.Smpp
