import Concentrator.Lib.Struct
import Concentrator.Comms.Dispatch

/-!
# The bench decoder

The Python decoder of the uplink format, from the bytes of one fragment to a header and records
whose fields are unbounded integers. It describes the packed structures a second time, as `struct`
formats. `headerFmt_mirrors` says that its header format agrees with the firmware's header; its
record format stops one byte before the end of the firmware's record
(`recordFmt_statusFlags_mirrors`).

So the decoder inverts the encoder on the fragments that carry no record, and refuses every other
fragment for its length (`decoderInverts_iff`).
-/

namespace Concentrator.Bench

/-- Reference: `tests/utils/uplink_protocol.py:24 _HEADER_FMT`. -/
def headerFmt : Format := [.I, .H, .B, .B, .B, .B, .B, .B]

/-- Reference: `tests/utils/uplink_protocol.py:25 _RECORD_FMT`. -/
def recordFmt : Format := [.s 6, .b, .H, .b, .B, .H, .h, .h, .h, .H, .I]

/-- Reference: `tests/utils/uplink_protocol.py:27 HEADER_SIZE`. -/
def HEADER_SIZE : Nat := headerFmt.calcsize

/-- Reference: `tests/utils/uplink_protocol.py:28 RECORD_SIZE`. -/
def RECORD_SIZE : Nat := recordFmt.calcsize

/-- Reference: `tests/utils/uplink_protocol.py:36 MAX_PLAUSIBLE_RECORDS`. -/
def MAX_PLAUSIBLE_RECORDS : Int := 200

/-- What the decoder raises. Reference: `tests/utils/uplink_protocol.py:39 ProtocolError`. -/
inductive Exception where
  | protocolError (message : String)
  /-- `struct.error`: the buffer is not of the format's size. -/
  | structError
  deriving DecidableEq

/-- A decoded endpoint. Reference: `tests/utils/uplink_protocol.py:44 Record`. -/
structure Record where
  address : List UInt8
  rssi : Int
  secondsSinceSeen : Int
  temperature : Int
  humidity : Int
  pressure : Int
  accX : Int
  accY : Int
  accZ : Int
  batteryMv : Int
  endpointTimestamp : Int
  deriving DecidableEq

/-- A decoded header. Reference: `tests/utils/uplink_protocol.py:82 Header`. -/
structure Header where
  concentratorId : Int
  sequence : Int
  fragmentIndex : Int
  fragmentCount : Int
  recordCount : Int
  droppedAdvReports : Int
  evictedDevices : Int
  flags : Int
  deriving DecidableEq

/-- A decoded fragment. Reference: `tests/utils/uplink_protocol.py:115 Fragment`. -/
structure Fragment where
  header : Header
  records : List Record
  raw : List UInt8
  deriving DecidableEq

/-- `struct.unpack`, which raises for a buffer of another size. -/
def unpack (fmt : Format) (data : List UInt8) : Except Exception fmt.Vals :=
  match fmt.unpack data with
  | some vals => .ok vals
  | none => .error .structError

/-- The header of a tuple, as `Header(*fields)` builds it. -/
def Header.ofFields : headerFmt.Vals → Header
  | (concentratorId, sequence, fragmentIndex, fragmentCount, recordCount, droppedAdvReports,
      evictedDevices, flags, ()) =>
    { concentratorId, sequence, fragmentIndex, fragmentCount, recordCount, droppedAdvReports,
      evictedDevices, flags }

/-- The record of a tuple. Reference: `tests/utils/uplink_protocol.py:169`. -/
def Record.ofFields : recordFmt.Vals → Record
  | (addr, rssi, secs, temp, hum, pres, ax, ay, az, batt, ts, ()) =>
    { address := addr, rssi, secondsSinceSeen := secs, temperature := temp, humidity := hum,
      pressure := pres, accX := ax, accY := ay, accZ := az, batteryMv := batt,
      endpointTimestamp := ts }

/-- Decode the header. Reference: `tests/utils/uplink_protocol.py:127 parse_header`. -/
def parseHeader (data : List UInt8) : Except Exception Header := do
  if data.length < HEADER_SIZE then
    .error (.protocolError s!"need {HEADER_SIZE} bytes for a header, got {data.length}")
  else
    let fields ← unpack headerFmt (data.take HEADER_SIZE)
    let header := Header.ofFields fields
    if header.recordCount > MAX_PLAUSIBLE_RECORDS then
      .error (.protocolError (s!"record_count is {header.recordCount}, which is not plausible; " ++
        "the stream has lost sync"))
    else .ok header

/-- Decode the record at `start`. Reference: `tests/utils/uplink_protocol.py:165-169`. -/
def parseRecord (data : List UInt8) (start : Nat) : Except Exception Record := do
  let fields ← unpack recordFmt ((data.drop start).take RECORD_SIZE)
  .ok (Record.ofFields fields)

/-- Decode the records that follow the header.
Reference: `tests/utils/uplink_protocol.py:163-169`. -/
def parseRecords (data : List UInt8) (recordCount : Nat) : Except Exception (List Record) :=
  (List.range recordCount).mapM fun i => parseRecord data (HEADER_SIZE + i * RECORD_SIZE)

/-- Decode a whole fragment: the header and exactly its records. Reference:
`tests/utils/uplink_protocol.py:149 parse_fragment`. -/
def parseFragment (data : List UInt8) : Except Exception Fragment := do
  let header ← parseHeader data
  let expected := HEADER_SIZE + header.recordCount.toNat * RECORD_SIZE
  if data.length ≠ expected then
    .error (.protocolError (s!"header declares {header.recordCount} records, so the fragment is " ++
      s!"{expected} bytes, but {data.length} were given"))
  else
    let records ← parseRecords data header.recordCount.toNat
    .ok { header, records, raw := data }

/-! ## The formats beside the packed structures -/

/-- The header whose fields have the values of the firmware's. -/
def Header.ofUplink (h : Comms.UplinkHeader) : Header where
  concentratorId := h.concentratorId.toNat
  sequence := h.sequence.toNat
  fragmentIndex := h.fragmentIndex.toNat
  fragmentCount := h.fragmentCount.toNat
  recordCount := h.recordCount.toNat
  droppedAdvReports := h.droppedAdvReports.toNat
  evictedDevices := h.evictedDevices.toNat
  flags := h.flags.toNat

/-- The record whose fields have the values and signs of the firmware's, as far as the decoder knows
its fields: it has none for `status_flags`. -/
def Record.ofEndpoint (r : Comms.EndpointRecord) : Record where
  address := r.address.bytes
  rssi := r.rssi.toInt
  secondsSinceSeen := r.secondsSinceSeen.toNat
  temperature := r.temperature.toInt
  humidity := r.humidity.toNat
  pressure := r.pressure.toNat
  accX := r.accX.toInt
  accY := r.accY.toInt
  accZ := r.accZ.toInt
  batteryMv := r.batteryMv.toNat
  endpointTimestamp := r.endpointTimestamp.toNat

open FormatCode Format.Mirrors in
/-- The header format is the firmware's header. -/
theorem headerFmt_mirrors : headerFmt.Mirrors Comms.UplinkHeader.layout fun h =>
    (h.concentratorId.toNat, h.sequence.toNat, h.fragmentIndex.toNat, h.fragmentCount.toNat,
      h.recordCount.toNat, h.droppedAdvReports.toNat, h.evictedDevices.toNat, h.flags.toNat, ()) :=
  Format.Mirrors.iso (cons mirrors_u32 <| cons mirrors_u16 <| cons mirrors_u8 <| cons mirrors_u8 <|
    cons mirrors_u8 <| cons mirrors_u8 <| cons mirrors_u8 <| last mirrors_u8) _ _

open FormatCode Format.Mirrors in
/-- The record format is the firmware's record without its last byte: with one more code, for
`status_flags`, it would be the whole of it. -/
theorem recordFmt_statusFlags_mirrors :
    Format.Mirrors (recordFmt ++ [.B]) Comms.EndpointRecord.layout fun r =>
      (r.address.bytes, r.rssi.toInt, (r.secondsSinceSeen.toNat : Int), r.temperature.toInt,
        (r.humidity.toNat : Int), (r.pressure.toNat : Int), r.accX.toInt, r.accY.toInt,
        r.accZ.toInt, (r.batteryMv.toNat : Int), (r.endpointTimestamp.toNat : Int),
        (r.statusFlags.toNat : Int), ()) :=
  Format.Mirrors.iso (cons ((mirrors_bytes 6).iso _ _) <| cons mirrors_i8 <| cons mirrors_u16 <|
    cons mirrors_i8 <| cons mirrors_u8 <| cons mirrors_u16 <| cons mirrors_i16 <|
    cons mirrors_i16 <| cons mirrors_i16 <| cons mirrors_u16 <| cons mirrors_u32 <|
    last mirrors_u8) _ _

/-- The sizes that the decoder computes from its formats. -/
theorem calcsizes : HEADER_SIZE = 12 ∧ RECORD_SIZE = 25 := ⟨rfl, rfl⟩

/-! ## Decoding what the firmware sends -/

section
variable {ρ : Type} [AsReading ρ]

/-- The decoder inverts the encoder on a fragment: decoding its bytes succeeds, and gives the header
and one record for each entry, in order, with the values and signs of all their fields. -/
def DecoderInverts (f : Comms.Fragment ρ) : Prop :=
  ∃ decoded, parseFragment f.bytes = .ok decoded ∧ decoded.header = .ofUplink f.header ∧
    decoded.records = f.records.map .ofEndpoint

/-- The header of every fragment is decoded, as long as the count it declares is plausible. -/
theorem parseHeader_bytes (f : Comms.Fragment ρ) (hcount : f.header.recordCount.toNat ≤ 200) :
    parseHeader f.bytes = .ok (.ofUplink f.header) := by
  have hlong : ¬ f.bytes.length < HEADER_SIZE := by
    rw [f.length_bytes]
    exact Nat.not_lt.2 (Nat.le_add_right ..)
  have htake : f.bytes.take HEADER_SIZE = Comms.UplinkHeader.layout.pack f.header :=
    List.take_left' (Comms.UplinkHeader.layout.length_pack _)
  have hunpack : unpack headerFmt (f.bytes.take HEADER_SIZE) =
      .ok (headerFmt.read (Comms.UplinkHeader.layout.pack f.header)) := by
    rw [htake, unpack, Format.unpack_of_length (Comms.UplinkHeader.layout.length_pack _)]
  have hfields : Header.ofFields (headerFmt.read (Comms.UplinkHeader.layout.pack f.header)) =
      .ofUplink f.header := by
    rw [headerFmt_mirrors.read_pack]
    rfl
  have hplausible : ¬ (Header.ofUplink f.header).recordCount > MAX_PLAUSIBLE_RECORDS := by
    show ¬ (f.header.recordCount.toNat : Int) > 200
    omega
  unfold parseHeader
  rw [if_neg hlong, hunpack]
  show (if (Header.ofFields _).recordCount > _ then _ else Except.ok (Header.ofFields _)) = _
  rw [hfields, if_neg hplausible]

/-- A decoded fragment has the length its header declares, in records of the decoder's size. -/
theorem parseFragment_length {data : List UInt8} {decoded : Fragment}
    (h : parseFragment data = .ok decoded) :
    data.length = HEADER_SIZE + decoded.header.recordCount.toNat * RECORD_SIZE := by
  unfold parseFragment at h
  cases hheader : parseHeader data with
  | error e => rw [hheader] at h; cases h
  | ok header =>
    rw [hheader] at h
    change (if data.length ≠ HEADER_SIZE + header.recordCount.toNat * RECORD_SIZE then _ else _) =
      Except.ok decoded at h
    split at h
    case isTrue => cases h
    case isFalse hlen =>
      cases hrecords : parseRecords data header.recordCount.toNat with
      | error e => rw [hrecords] at h; cases h
      | ok records =>
        rw [hrecords] at h
        cases h
        exact not_not.1 hlen

/-- A fragment whose header counts its entries is decoded exactly when it carries none: the decoder
expects 25 bytes for each record, and the firmware sends 26. -/
theorem decoderInverts_iff_nil {f : Comms.Fragment ρ}
    (hcount : f.header.recordCount.toNat = f.entries.length) :
    DecoderInverts f ↔ f.entries = [] := by
  constructor
  · rintro ⟨decoded, hparse, hheader, -⟩
    have hlen := parseFragment_length hparse
    have hdeclared : decoded.header.recordCount.toNat = f.entries.length := by
      rw [hheader, ← hcount]
      rfl
    rw [f.length_bytes, hdeclared, calcsizes.1, calcsizes.2] at hlen
    exact List.eq_nil_of_length_eq_zero (by omega)
  · intro hnil
    have hzero : f.header.recordCount.toNat = 0 := by rw [hcount, hnil]; rfl
    have hheader := parseHeader_bytes f (by omega)
    refine ⟨⟨.ofUplink f.header, [], f.bytes⟩, ?_, rfl, by simp [Comms.Fragment.records, hnil]⟩
    have hdeclared : (Header.ofUplink f.header).recordCount.toNat = 0 := hzero
    have hlen : f.bytes.length = HEADER_SIZE + 0 * RECORD_SIZE := by
      rw [f.length_bytes, hnil]
      rfl
    unfold parseFragment
    rw [hheader]
    show (if f.bytes.length ≠
      HEADER_SIZE + (Header.ofUplink f.header).recordCount.toNat * RECORD_SIZE then _ else _) = _
    rw [hdeclared, if_neg (not_not.2 hlen)]
    rfl

/-- The bench decoder inverts the encoder exactly on the fragments without records. For every state
of the header and every list of entries, this is about what `send_fragment()` hands to the link. -/
theorem decoderInverts_iff (cfg : Config) (statics : Comms.Statics)
    (droppedReports evicted : UInt16) (entries : List (Entry ρ))
    (count fragmentIndex fragmentCount : UInt8) (nowS : UInt32)
    (isHeartbeat : Bool) (hcount : count.toNat ≤ entries.length) :
    DecoderInverts
        { header := Comms.uplinkHeader cfg statics droppedReports evicted count fragmentIndex
            fragmentCount isHeartbeat
          entries := entries.take count.toNat
          nowS := nowS } ↔
      count = 0 := by
  have htake : (entries.take count.toNat).length = count.toNat := List.length_take_of_le hcount
  rw [decoderInverts_iff_nil (by exact htake.symm), ← List.length_eq_zero_iff, htake,
    ← UInt8.toNat_inj]
  rfl

end

/-- A table entry of a device last seen at boot. -/
def firstEntry : Entry Reading := ⟨.ofByte 1, -50, default, 0, 1, 0, true⟩

/-- The decoder inverts a fragment without records, whatever entries are there to send. -/
theorem decoderInverts_iff_heartbeat :
    DecoderInverts
      { header := Comms.uplinkHeader (.ofDevices 1) ⟨7, true, 0⟩ 0 0 0 0 1 true
        entries := [firstEntry].take 0
        nowS := 5 } :=
  (decoderInverts_iff (.ofDevices 1) ⟨7, true, 0⟩ 0 0 [firstEntry] 0 0 1 5 true (by decide)).2 rfl

/-- A fragment of one record is refused: it has 38 bytes, and the decoder expects 37. -/
theorem decoderInverts_fails :
    ¬ DecoderInverts
      { header := Comms.uplinkHeader (.ofDevices 1) ⟨7, true, 0⟩ 0 0 1 0 1 false
        entries := [firstEntry]
        nowS := 5 } := by
  rintro ⟨decoded, hparse, hheader, -⟩
  have hlen := parseFragment_length hparse
  rw [hheader, Comms.Fragment.length_bytes] at hlen
  exact absurd hlen (by decide)

end Concentrator.Bench
