import Mathlib.Data.List.Sort
import Vumi2.MessageCaches

/-!
# The sequencer and the SMPP cache

The in-memory sequencer of `sequencers.py`, and the in-memory cache of `smpp_cache.py`: the parts of
the multipart messages that are not complete yet, and the vumi message of each SMPP message id.
-/

namespace Vumi2.Smpp

open Effect Eff Text

/-- `InMemorySequencer`. -/
structure InMemorySequencer where
  sequence_number : ℕ
deriving DecidableEq, Repr

/-- `InMemorySequencer.get_next_sequence_number`. -/
def getNextSequenceNumber : Py InMemorySequencer ℕ := do
  modify fun s => ⟨s.sequence_number % 0x7FFFFFFF + 1⟩
  let s ← get
  pure s.sequence_number

/-- `InMemorySmppCache`. -/
structure InMemorySmppCache where
  /-- The parts of each incomplete message, under its reference number and its total. -/
  multipart : Dict (ℤ × ℕ) (Dict ℕ Str)
  /-- The vumi message id of each SMPP message id. -/
  smpp_msg_id : TimeoutDict Str

namespace InMemorySmppCache

/-- `InMemorySmppCache(config)`. -/
def new (timeout : ℚ) : InMemorySmppCache := ⟨Dict.empty, TimeoutDict.new timeout⟩

/-- `"".join(c for i, c in sorted(parts.items()))`. -/
def joined (parts : Dict ℕ Str) : Str :=
  ((parts.items.insertionSort fun a b => a.1 ≤ b.1).map Prod.snd).flatten

/-- `InMemorySmppCache.store_multipart`. -/
def storeMultipart (ref_num : ℤ) (tot_num part_num : ℕ) (content : Str) :
    Py InMemorySmppCache (Option Str) := do
  let c ← get
  let key := (ref_num, tot_num)
  let parts := ((c.multipart.get? key).getD Dict.empty).set part_num content
  if parts.length = tot_num then do
    modify fun c => { c with multipart := c.multipart.erase key }
    pure (some (joined parts))
  else do
    modify fun c => { c with multipart := c.multipart.set key parts }
    pure none

/-- A computation on the mapping of SMPP message ids. -/
def onSmppMsgId {α : Type} (m : Py (TimeoutDict Str) α) : Py InMemorySmppCache α :=
  on smpp_msg_id (fun c d => { c with smpp_msg_id := d }) m

/-- `InMemorySmppCache.store_smpp_message_id`. -/
def storeSmppMessageId (vumi_message_id smpp_message_id : Str) : Py InMemorySmppCache Unit :=
  onSmppMsgId (TimeoutDict.setitem smpp_message_id vumi_message_id)

/-- `InMemorySmppCache.delete_smpp_message_id`. -/
def deleteSmppMessageId (smpp_message_id : Str) : Py InMemorySmppCache Unit :=
  onSmppMsgId do
    let _ ← TimeoutDict.pop smpp_message_id
    pure ()

/-- `InMemorySmppCache.get_smpp_message_id`. It looks the id up with `pop`. -/
def getSmppMessageId (smpp_message_id : Str) : Py InMemorySmppCache (Option Str) :=
  onSmppMsgId (TimeoutDict.pop smpp_message_id)

end InMemorySmppCache

end Vumi2.Smpp
