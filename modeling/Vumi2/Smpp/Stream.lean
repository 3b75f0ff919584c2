import Vumi2.Lib.Framing
import Vumi2.Runtime

/-!
# The byte stream of the SMPP client

`consume_stream` gets the bytes of the peer in chunks, and cuts PDUs out of its buffer with
`extract_pdu`. What is done with a PDU, its decoding and `handle_pdu`, is a parameter here
(`onPdu`), so that what is said of the stream holds whatever that does.

Of well-formed bytes, `extract_pdu` makes a `Framing.Reader`: `consume_stream_yields` follows from
the rules of that library. Of any bytes, it does what it should exactly if no length field is below
the size of a header (`loopWhole_iff`).
-/

namespace Vumi2.Smpp

open Effect Eff Text Framing

/-- The length of a PDU's header. -/
def headerLength : ℕ := 16

/-- `int.from_bytes(data[:4], "big")`. -/
def cmdLength (data : Bytes) : ℕ := fromBytesBig (data.take 4)

/-- `extract_pdu`: what it returns, and what it leaves in `data`. -/
def extractPdu (data : Bytes) : Option Bytes × Bytes :=
  if data.length < headerLength then (none, data)
  else if data.length < cmdLength data then (none, data)
  else (some (data.take (cmdLength data)), data.drop (cmdLength data))

/-- The client, as far as its stream is concerned: the `buffer`, and what the handling of a PDU
works on. -/
structure StreamReader (σ : Type) where
  buffer : Bytes
  client : σ

namespace StreamReader

variable {σ : Type}

/-- `self.extract_pdu(self.buffer)`. -/
def extract : Py (StreamReader σ) (Option Bytes) := do
  let c ← get
  modify fun c => { c with buffer := (extractPdu c.buffer).2 }
  pure (extractPdu c.buffer).1

/-- A computation of the client, in which the buffer does not occur. -/
def onClient {α : Type} (m : Py σ α) : Py (StreamReader σ) α :=
  on client (fun c s => { c with client := s }) m

variable (onPdu : Bytes → Py σ PUnit)

/-- The inner loop of `consume_stream`, for so many rounds; whether it has come to its `break`. -/
def extractAll : ℕ → Py (StreamReader σ) Bool
  | 0 => pure false
  | rounds + 1 => do
    match ← extract with
    | none => pure true
    | some pdu_data => do
      onClient (onPdu pdu_data)
      extractAll rounds

/-- `consume_stream`, for the chunks that come before the stream ends, with so many rounds for the
inner loop after each. -/
def consumeStream (rounds : ℕ) : List Bytes → Py (StreamReader σ) Bool
  | [] => pure true
  | data :: chunks => do
    modify fun c => { c with buffer := c.buffer ++ data }
    if ← extractAll onPdu rounds then consumeStream rounds chunks else pure false

end StreamReader

/-! ## Frames -/

/-- A frame says how long it is, and has a header. -/
def IsFrame (f : Bytes) : Prop := headerLength ≤ f.length ∧ cmdLength f = f.length

/-- More bytes behind the header leave the length field as it is. -/
theorem cmdLength_append {data : Bytes} (h : headerLength ≤ data.length) (more : Bytes) :
    cmdLength (data ++ more) = cmdLength data := by
  unfold headerLength at h
  unfold cmdLength
  rw [List.take_append_of_le_length (by omega)]

/-- How `extract_pdu` returns a PDU. -/
theorem extractPdu_eq_some {data f rest : Bytes} :
    extractPdu data = (some f, rest) ↔ headerLength ≤ data.length ∧
      cmdLength data ≤ data.length ∧ f = data.take (cmdLength data) ∧
      rest = data.drop (cmdLength data) := by
  unfold extractPdu
  constructor
  · intro h
    split_ifs at h with hshort hlong
    · cases h
    · cases h
    · obtain ⟨hf, hrest⟩ := Prod.mk.inj h
      exact ⟨Nat.le_of_not_lt hshort, Nat.le_of_not_lt hlong, (Option.some.inj hf).symm, hrest.symm⟩
  · rintro ⟨hheader, hlength, rfl, rfl⟩
    rw [if_neg (Nat.not_lt.2 hheader), if_neg (Nat.not_lt.2 hlength)]

/-- No PDU is cut off while the header or the PDU is incomplete. -/
theorem extractPdu_eq_none {data rest : Bytes} :
    extractPdu data = (none, rest) ↔
      (data.length < headerLength ∨ data.length < cmdLength data) ∧ rest = data := by
  unfold extractPdu
  constructor
  · intro h
    split_ifs at h with hshort hlong
    · exact ⟨.inl hshort, (Prod.mk.inj h).2.symm⟩
    · exact ⟨.inr hlong, (Prod.mk.inj h).2.symm⟩
    · cases h
  · rintro ⟨hshort, rfl⟩
    split_ifs with h h'
    · rfl
    · rfl
    · rcases hshort with hshort | hshort
      · exact absurd hshort h
      · exact absurd hshort h'

/-- `extract_pdu` can read a stream in chunks. -/
theorem reader_extractPdu : Reader extractPdu where
  stable := by
    intro d f r more h
    obtain ⟨hheader, hlength, rfl, rfl⟩ := extractPdu_eq_some.1 h
    have hcmd := cmdLength_append hheader more
    refine extractPdu_eq_some.2 ⟨?_, ?_, ?_, ?_⟩
    · rw [List.length_append]
      omega
    · rw [hcmd, List.length_append]
      omega
    · rw [hcmd, List.take_append_of_le_length hlength]
    · rw [hcmd, List.drop_append_of_le_length hlength]
  unchanged := fun h => (extractPdu_eq_none.1 h).2

/-- A frame at the front of the buffer is extracted. -/
theorem extractPdu_frame {f : Bytes} (h : IsFrame f) (more : Bytes) :
    extractPdu (f ++ more) = (some f, more) := by
  obtain ⟨hheader, hlength⟩ := h
  have hcmd : cmdLength (f ++ more) = f.length := by rw [cmdLength_append hheader, hlength]
  refine extractPdu_eq_some.2 ⟨?_, ?_, ?_, ?_⟩
  · rw [List.length_append]
    omega
  · rw [hcmd, List.length_append]
    omega
  · rw [hcmd, List.take_left]
  · rw [hcmd, List.drop_left]

/-- The front of a frame, short of all of it, is left alone. -/
theorem extractPdu_trailing {trailing next : Bytes} (hnext : IsFrame next)
    (hfront : trailing <+: next) (hproper : trailing ≠ next) :
    extractPdu trailing = (none, trailing) := by
  obtain ⟨more, rfl⟩ := hfront
  have hpos : 0 < more.length := by
    rw [List.length_pos_iff_ne_nil]
    rintro rfl
    exact hproper (List.append_nil _).symm
  refine extractPdu_eq_none.2 ⟨?_, rfl⟩
  rcases Nat.lt_or_ge trailing.length headerLength with hshort | hheader
  · exact .inl hshort
  · -- The length field is there already, and counts what is still to come.
    right
    rw [← cmdLength_append hheader more, hnext.2, List.length_append]
    omega

/-- Whole frames are cut off one by one, up to what is incomplete. -/
theorem drains_frames {frames : List Bytes} (hframes : ∀ f ∈ frames, IsFrame f) {trailing : Bytes}
    (htrailing : extractPdu trailing = (none, trailing)) :
    Drains extractPdu (frames.flatten ++ trailing) frames trailing := by
  refine ⟨?_, htrailing⟩
  induction frames with
  | nil => rfl
  | cons f frames ih =>
    obtain ⟨hf, hframes⟩ := List.forall_mem_cons.1 hframes
    rw [List.flatten_cons, List.append_assoc]
    exact ⟨_, extractPdu_frame hf _, ih hframes⟩

/-! ## The loops -/

namespace StreamReader

variable {σ : Type} (onPdu : Bytes → Py σ PUnit)

/-- The outcome of a loop that handles these PDUs in order: what the handling of them alone gives,
and if that does not raise, `rest` is left in the buffer. -/
structure Handles (pdus : List Bytes) (rest : Bytes) (env : ℕ → Reading) (s : σ)
    (o : Outcome PyExc (StreamReader σ) Bool) : Prop where
  result : o.result = ((forM pdus onPdu).run env s).result.map fun _ => true
  used : o.used = ((forM pdus onPdu).run env s).used
  client : o.state.client = ((forM pdus onPdu).run env s).state
  buffer : ((forM pdus onPdu).run env s).result = .ok PUnit.unit → o.state.buffer = rest

/-- The step of the loop cuts a PDU off the buffer. -/
theorem run_extract (env : ℕ → Reading) (c : StreamReader σ) :
    (extract : Py (StreamReader σ) (Option Bytes)).run env c =
      ⟨.ok (extractPdu c.buffer).1, 0, { c with buffer := (extractPdu c.buffer).2 }⟩ := by
  simp [extract]

/-- A loop that handles no PDU. -/
theorem handles_nil (rest : Bytes) (env : ℕ → Reading) (s : σ) :
    Handles onPdu [] rest env s ⟨.ok true, 0, ⟨rest, s⟩⟩ := ⟨rfl, rfl, rfl, fun _ => rfl⟩

/-- A loop that handles a PDU, and then goes on. -/
theorem handles_cons {pdu rest : Bytes} {pdus : List Bytes} {buffer : Bytes}
    {m : Py (StreamReader σ) Bool}
    (h : ∀ env s, Handles onPdu pdus rest env s (m.run env ⟨buffer, s⟩))
    (env : ℕ → Reading) (s : σ) :
    Handles onPdu (pdu :: pdus) rest env s
      ((onClient (onPdu pdu) >>= fun _ => m).run env ⟨buffer, s⟩) := by
  cases honPdu : ((onPdu pdu).run env s).result with
  | error e =>
    -- The handling raises, and so do both loops.
    have hall : (forM (pdu :: pdus) onPdu).run env s =
        ⟨.error e, ((onPdu pdu).run env s).used, ((onPdu pdu).run env s).state⟩ := by
      rw [List.forM_cons, run_bind, honPdu]
    constructor
    · rw [hall, run_bind, onClient, run_on, honPdu]
      rfl
    · rw [hall, run_bind, onClient, run_on, honPdu]
    · rw [hall, run_bind, onClient, run_on, honPdu]
    · intro hok
      rw [hall] at hok
      cases hok
  | ok u =>
    -- It does not, and the rest is handled in the state that it leaves.
    have hrest := h (later env ((onPdu pdu).run env s).used) ((onPdu pdu).run env s).state
    have hall : (forM (pdu :: pdus) onPdu).run env s =
        ⟨((forM pdus onPdu).run (later env ((onPdu pdu).run env s).used)
            ((onPdu pdu).run env s).state).result,
          ((onPdu pdu).run env s).used + ((forM pdus onPdu).run
            (later env ((onPdu pdu).run env s).used) ((onPdu pdu).run env s).state).used,
          ((forM pdus onPdu).run (later env ((onPdu pdu).run env s).used)
            ((onPdu pdu).run env s).state).state⟩ := by
      rw [List.forM_cons, run_bind, honPdu]
    constructor
    · rw [hall, run_bind, onClient, run_on, honPdu]
      exact hrest.result
    · rw [hall, run_bind, onClient, run_on, honPdu]
      exact congrArg _ hrest.used
    · rw [hall, run_bind, onClient, run_on, honPdu]
      exact hrest.client
    · rw [hall, run_bind, onClient, run_on, honPdu]
      exact hrest.buffer

/-- The inner loop handles what the buffer yields. -/
theorem handles_extractAll {data rest : Bytes} {pdus : List Bytes}
    (h : Drains extractPdu data pdus rest) {rounds : ℕ} (hrounds : pdus.length < rounds)
    (env : ℕ → Reading) (s : σ) :
    Handles onPdu pdus rest env s ((extractAll onPdu rounds).run env ⟨data, s⟩) := by
  obtain ⟨htakes, hend⟩ := h
  induction pdus generalizing data rounds env s with
  | nil =>
    obtain rfl : rest = data := htakes
    obtain ⟨rounds, rfl⟩ := Nat.exists_eq_succ_of_ne_zero (Nat.ne_of_gt hrounds)
    rw [extractAll, run_bind_ok (run_extract env _)]
    simp only [hend]
    exact handles_nil onPdu rest env s
  | cons pdu pdus ih =>
    -- One round takes one PDU off the buffer.
    obtain ⟨data', hsplit, htakes⟩ := htakes
    obtain ⟨rounds, rfl⟩ := Nat.exists_eq_succ_of_ne_zero (Nat.ne_of_gt (Nat.zero_lt_of_lt hrounds))
    rw [extractAll, run_bind_ok (run_extract env _)]
    simp only [hsplit, later_zero, Nat.zero_add]
    exact handles_cons onPdu (fun env s => ih (Nat.lt_of_succ_lt_succ hrounds) env s htakes) env s

/-- What a chunk adds to the buffer, and the rest of the chunks. -/
theorem handles_append {pdus pdus' : List Bytes} {data rest rest' : Bytes}
    {m m' : Py (StreamReader σ) Bool}
    (h : ∀ env s, Handles onPdu pdus rest env s (m.run env ⟨data, s⟩))
    (h' : ∀ env s, Handles onPdu pdus' rest' env s (m'.run env ⟨rest, s⟩))
    (env : ℕ → Reading) (s : σ) :
    Handles onPdu (pdus ++ pdus') rest' env s
      ((m >>= fun ended => if ended = true then m' else pure false).run env ⟨data, s⟩) := by
  have hfirst := h env s
  have hstate : (m.run env ⟨data, s⟩).state =
      ⟨(m.run env ⟨data, s⟩).state.buffer, ((forM pdus onPdu).run env s).state⟩ := by
    rw [← hfirst.client]
  have hall : forM (pdus ++ pdus') onPdu = (forM pdus onPdu >>= fun _ => forM pdus' onPdu) :=
    List.forM_append
  cases heach : ((forM pdus onPdu).run env s).result with
  | error e =>
    -- A PDU of the first chunk raises.
    have hresult : (m.run env ⟨data, s⟩).result = .error e := by rw [hfirst.result, heach]; rfl
    constructor
    · rw [hall, run_bind, run_bind, hresult, heach]
      rfl
    · rw [hall, run_bind, run_bind, hresult, heach]
      exact hfirst.used
    · rw [hall, run_bind, run_bind, hresult, heach]
      exact hfirst.client
    · intro hok
      rw [hall, run_bind, heach] at hok
      cases hok
  | ok u =>
    -- None does: the next chunk is appended to what the first one left.
    have hresult : (m.run env ⟨data, s⟩).result = .ok true := by rw [hfirst.result, heach]; rfl
    have hrest :=
      h' (later env ((forM pdus onPdu).run env s).used) ((forM pdus onPdu).run env s).state
    rw [hfirst.buffer heach] at hstate
    rw [← hstate, ← hfirst.used] at hrest
    constructor
    · rw [hall, run_bind, run_bind, hresult, heach]
      dsimp only
      rw [if_pos rfl, hrest.result, hfirst.used]
    · rw [hall, run_bind, run_bind, hresult, heach]
      dsimp only
      rw [if_pos rfl, hrest.used, hfirst.used]
    · rw [hall, run_bind, run_bind, hresult, heach]
      dsimp only
      rw [if_pos rfl, hrest.client, hfirst.used]
    · rw [hall, run_bind, run_bind, hresult, heach]
      dsimp only
      rw [if_pos rfl]
      intro hok
      refine hrest.buffer ?_
      rw [hfirst.used]
      exact hok

/-- However the bytes are cut into chunks, `consume_stream` handles what they yield. -/
theorem handles_consumeStream {chunks : List Bytes} {data rest : Bytes} {pdus : List Bytes}
    (hdata : extractPdu data = (none, data))
    (h : Drains extractPdu (data ++ chunks.flatten) pdus rest) {rounds : ℕ}
    (hrounds : pdus.length < rounds) (env : ℕ → Reading) (s : σ) :
    Handles onPdu pdus rest env s ((consumeStream onPdu rounds chunks).run env ⟨data, s⟩) := by
  induction chunks generalizing data pdus env s with
  | nil =>
    rw [List.flatten_nil, List.append_nil] at h
    have hnil : Drains extractPdu data [] data := ⟨rfl, hdata⟩
    obtain ⟨rfl, rfl⟩ := drains_unique h hnil
    exact handles_nil onPdu rest env s
  | cons chunk chunks ih =>
    rw [List.flatten_cons, ← List.append_assoc] at h
    -- What the first chunk yields, and what the others yield after it.
    obtain ⟨pdus₁, rest₁, pdus₂, hfirst, hsecond, rfl⟩ := drains_prefix reader_extractPdu h
    rw [List.length_append] at hrounds
    rw [consumeStream, run_modify_bind]
    exact handles_append onPdu (fun env s => handles_extractAll onPdu hfirst (by omega) env s)
      (fun env s => ih hfirst.2 hsecond (by omega) env s) env s

/-- A client that only keeps the PDUs it gets. -/
def keepPdu (pdu : Bytes) : Py (List Bytes) PUnit := modify fun pdus => pdus ++ [pdu]

/-- The PDUs are kept in their order. -/
theorem run_forM_keepPdu (pdus kept : List Bytes) (env : ℕ → Reading) :
    (forM pdus keepPdu).run env kept = ⟨.ok PUnit.unit, 0, kept ++ pdus⟩ := by
  induction pdus generalizing kept with
  | nil =>
    rw [List.append_nil]
    rfl
  | cons pdu pdus ih =>
    rw [List.forM_cons, keepPdu, run_modify_bind, ih, List.append_assoc, List.singleton_append]

/-- However a sequence of frames, and the front of another, is cut into chunks, `consume_stream`
yields exactly these frames in their order, and keeps exactly the rest in its buffer. -/
theorem consumeStream_yields {frames : List Bytes} (hframes : ∀ f ∈ frames, IsFrame f)
    {trailing next : Bytes} (hnext : IsFrame next) (hfront : trailing <+: next)
    (hproper : trailing ≠ next) {chunks : List Bytes}
    (hcut : chunks.flatten = frames.flatten ++ trailing) {rounds : ℕ}
    (hrounds : frames.length < rounds) (env : ℕ → Reading) :
    (consumeStream keepPdu rounds chunks).run env ⟨[], []⟩ = ⟨.ok true, 0, ⟨trailing, frames⟩⟩ ∧
      ∀ (onPdu : Bytes → Py σ PUnit) (s : σ),
        Handles onPdu frames trailing env s
          ((consumeStream onPdu rounds chunks).run env ⟨[], s⟩) := by
  have hdrains : Drains extractPdu ([] ++ chunks.flatten) frames trailing := by
    rw [List.nil_append, hcut]
    exact drains_frames hframes (extractPdu_trailing hnext hfront hproper)
  have hall : ∀ {τ : Type} (onPdu : Bytes → Py τ PUnit) (s : τ),
      Handles onPdu frames trailing env s
        ((consumeStream onPdu rounds chunks).run env ⟨[], s⟩) :=
    fun onPdu s => handles_consumeStream onPdu rfl hdrains hrounds env s
  refine ⟨?_, hall⟩
  -- With a client that keeps what it gets, the outcome is known in full.
  obtain ⟨hresult, hused, hclient, hbuffer⟩ := hall keepPdu []
  rw [run_forM_keepPdu, List.nil_append] at hresult hused hclient hbuffer
  rcases ho :
    (consumeStream keepPdu rounds chunks).run env ⟨[], []⟩ with ⟨result, used, buffer, kept⟩
  rw [ho] at hresult hused hclient hbuffer
  obtain rfl : result = .ok true := hresult
  obtain rfl : used = 0 := hused
  obtain rfl : kept = frames := hclient
  obtain rfl : buffer = trailing := hbuffer rfl
  rfl

/-- A header alone. -/
def headerFrame : Bytes := [0, 0, 0, 16, 0, 0, 0, 21, 0, 0, 0, 0, 0, 0, 0, 1]

/-- `consumeStream_yields` holds of two frames, of which the first is cut in its length field, and
of which only the first three bytes of a third have come. -/
theorem headerFrames_yielded :
    (consumeStream keepPdu 3 [[0, 0], [], headerFrame.drop 2 ++ headerFrame ++ [0, 0], [0]]).run
        (fun _ => ⟨0, [], DateTime.min⟩) ⟨[], []⟩ =
      ⟨.ok true, 0, ⟨[0, 0, 0], [headerFrame, headerFrame]⟩⟩ := by
  have hframe : IsFrame headerFrame := ⟨Nat.le_refl 16, rfl⟩
  have hframes : ∀ f ∈ [headerFrame, headerFrame], IsFrame f := by
    intro f hf
    rcases List.mem_cons.1 hf with rfl | hf
    · exact hframe
    · rw [List.mem_singleton.1 hf]
      exact hframe
  have hfront : [0, 0, 0] <+: headerFrame := ⟨headerFrame.drop 3, rfl⟩
  exact (consumeStream_yields (σ := Unit) hframes hframe hfront (by decide) rfl (by decide) _).1

end StreamReader

/-! ## Any bytes -/

/-- `extract_pdu` returns a whole frame and leaves exactly what is behind it, or returns `None` and
leaves all. -/
def Whole (data : Bytes) : Prop :=
  match extractPdu data with
  | (some pdu, rest) => IsFrame pdu ∧ pdu ++ rest = data
  | (none, rest) => rest = data

/-- The inner loop of `consume_stream` takes whole frames only, and no more than there is room
for. -/
def LoopWhole (data : Bytes) : Prop :=
  ∀ pdus rest, Takes extractPdu data pdus rest →
    (∀ pdu ∈ pdus, IsFrame pdu) ∧ pdus.flatten ++ rest = data ∧
      pdus.length ≤ data.length / headerLength

/-- The length field, if it has come with the rest of a header, counts the header. -/
def ValidLength (data : Bytes) : Prop :=
  data.length < headerLength ∨ headerLength ≤ cmdLength data

/-- So many length fields, each found where the one before it says, count their headers. -/
def ValidLengths : ℕ → Bytes → Prop
  | 0, _ => True
  | n + 1, data => ValidLength data ∧ ValidLengths n (data.drop (cmdLength data))

/-- `extract_pdu` is right about a buffer exactly if the length field is valid. -/
theorem whole_iff (data : Bytes) : Whole data ↔ ValidLength data := by
  unfold Whole ValidLength
  rcases hsplit : extractPdu data with ⟨_ | pdu, rest⟩
  · obtain ⟨hshort, hrest⟩ := extractPdu_eq_none.1 hsplit
    refine ⟨fun _ => ?_, fun _ => hrest⟩
    rcases hshort with hshort | hlong
    · exact .inl hshort
    · rcases Nat.lt_or_ge data.length headerLength with hshort | hheader
      · exact .inl hshort
      · exact .inr (by omega)
  · obtain ⟨hheader, hlength, rfl, rfl⟩ := extractPdu_eq_some.1 hsplit
    have hlen : (data.take (cmdLength data)).length = cmdLength data := by
      rw [List.length_take]
      omega
    constructor
    · rintro ⟨⟨hframe, -⟩, -⟩
      rw [hlen] at hframe
      exact .inr hframe
    · rintro (hshort | hvalid)
      · omega
      · refine ⟨⟨by rw [hlen]; exact hvalid, ?_⟩, List.take_append_drop _ _⟩
        -- The length field is in the frame itself.
        have hcmd := cmdLength_append (by rw [hlen]; exact hvalid) (data.drop (cmdLength data))
        rw [List.take_append_drop] at hcmd
        rw [← hcmd, hlen]

/-- Whole frames fill the room they are counted for. -/
theorem length_le_of_isFrame {pdus : List Bytes} (h : ∀ pdu ∈ pdus, IsFrame pdu) :
    headerLength * pdus.length ≤ pdus.flatten.length := by
  induction pdus with
  | nil => exact Nat.le_refl 0
  | cons pdu pdus ih =>
    obtain ⟨⟨hheader, -⟩, hpdus⟩ := List.forall_mem_cons.1 h
    have hrest := ih hpdus
    unfold headerLength at hheader hrest ⊢
    rw [List.flatten_cons, List.length_append, List.length_cons]
    omega

/-- What is too short for a header has no length field. -/
theorem validLengths_of_short {data : Bytes} (h : data.length < headerLength) (n : ℕ) :
    ValidLengths n data := by
  induction n generalizing data with
  | zero => trivial
  | succ n ih =>
    refine ⟨.inl h, ih ?_⟩
    rw [List.length_drop]
    omega

/-- Valid length fields give whole frames. -/
theorem loopWhole_of_validLengths {data : Bytes} (h : ∀ n, ValidLengths n data) :
    LoopWhole data := by
  intro pdus rest htakes
  -- One frame after the other: each valid length field cuts a whole frame off.
  have hframes : (∀ pdu ∈ pdus, IsFrame pdu) ∧ pdus.flatten ++ rest = data := by
    induction pdus generalizing data with
    | nil =>
      obtain rfl : rest = data := htakes
      exact ⟨fun pdu hpdu => absurd hpdu List.not_mem_nil, rfl⟩
    | cons pdu pdus ih =>
      obtain ⟨data', hsplit, htakes⟩ := htakes
      have hwhole : Whole data := (whole_iff data).2 (h 1).1
      unfold Whole at hwhole
      rw [hsplit] at hwhole
      obtain ⟨hpdu, hdata⟩ := hwhole
      have hdrop : data' = data.drop (cmdLength data) := (extractPdu_eq_some.1 hsplit).2.2.2
      obtain ⟨hpdus, hrest⟩ := ih (fun n => by rw [hdrop]; exact (h (n + 1)).2) htakes
      refine ⟨List.forall_mem_cons.2 ⟨hpdu, hpdus⟩, ?_⟩
      rw [List.flatten_cons, List.append_assoc, hrest, hdata]
  refine ⟨hframes.1, hframes.2, ?_⟩
  -- Every frame has a header at least, which bounds their number.
  have hroom := length_le_of_isFrame hframes.1
  have hlen := congrArg List.length hframes.2
  rw [List.length_append] at hlen
  unfold headerLength at hroom ⊢
  omega

/-- Whole frames come of valid length fields only. -/
theorem validLengths_of_loopWhole {data : Bytes} (h : LoopWhole data) (n : ℕ) :
    ValidLengths n data := by
  induction n generalizing data with
  | zero => trivial
  | succ n ih =>
    rcases hsplit : extractPdu data with ⟨_ | pdu, rest⟩
    · -- Nothing is taken: the header has not come, or counts more than there is.
      have hvalid : ValidLength data := by
        rw [← whole_iff, Whole, hsplit]
        exact (extractPdu_eq_none.1 hsplit).2
      refine ⟨hvalid, validLengths_of_short ?_ n⟩
      have hshort := (extractPdu_eq_none.1 hsplit).1
      unfold headerLength at hshort ⊢
      rw [List.length_drop]
      omega
    · -- What is taken first is a whole frame, and the loop goes on behind it.
      have htake : Takes extractPdu data [pdu] rest := ⟨rest, hsplit, rfl⟩
      obtain ⟨hpdu, hdata, -⟩ := h _ _ htake
      rw [List.flatten_singleton] at hdata
      have hvalid : ValidLength data := by
        rw [← whole_iff, Whole, hsplit]
        exact ⟨hpdu pdu (List.mem_singleton_self pdu), hdata⟩
      refine ⟨hvalid, ?_⟩
      rw [← (extractPdu_eq_some.1 hsplit).2.2.2]
      refine ih fun pdus rest' htakes => ?_
      obtain ⟨hpdus, hall, -⟩ := h _ _ (show Takes extractPdu data (pdu :: pdus) rest' from
        ⟨rest, hsplit, htakes⟩)
      have hframes : ∀ pdu ∈ pdus, IsFrame pdu := fun p hp => hpdus p (List.mem_cons_of_mem _ hp)
      have hrest : pdus.flatten ++ rest' = rest := by
        rw [List.flatten_cons, List.append_assoc, ← hdata] at hall
        exact List.append_cancel_left hall
      refine ⟨hframes, hrest, ?_⟩
      have hroom := length_le_of_isFrame hframes
      have hlen := congrArg List.length hrest
      rw [List.length_append] at hlen
      unfold headerLength at hroom ⊢
      omega

/-- `extract_pdu` works in whole frames exactly if the length field counts the header; and so does
the inner loop, exactly if every length field that it comes to does. -/
theorem loopWhole_iff (data : Bytes) :
    (Whole data ↔ ValidLength data) ∧ (LoopWhole data ↔ ∀ n, ValidLengths n data) :=
  ⟨whole_iff data, fun h n => validLengths_of_loopWhole h n, loopWhole_of_validLengths⟩

/-- A header of zeros is extracted as an empty PDU, which leaves the buffer as it was. -/
theorem zeros_not_whole : ¬ Whole (List.replicate 16 0) := by
  rw [whole_iff]
  rintro (hshort | hvalid)
  · exact absurd hshort (Nat.lt_irrefl 16)
  · exact absurd hvalid (by decide)

end Vumi2.Smpp
