import Concentrator.Bench.UplinkProtocol

/-!
# What the bench decoder accepts

The fragments are exactly the packed headers and records: `parse_fragment()` accepts a byte string
if its length is the one that its ninth byte declares (`Framed`), returns what packs into that byte
string, and returns what was packed (`parseFragment_inverts`). Everything else it refuses with a
`ProtocolError`: the slices it hands to `struct.unpack()` always have the format's size.
-/

namespace Concentrator.Bench

/-- The fields of a header, as a tuple. -/
def Header.fields (h : Header) : headerFmt.Vals :=
  (h.concentratorId, h.sequence, h.fragmentIndex, h.fragmentCount, h.recordCount,
    h.droppedAdvReports, h.evictedDevices, h.flags, ())

/-- The fields of a record, as a tuple. -/
def Record.fields (r : Record) : recordFmt.Vals :=
  (r.address, r.rssi, r.secondsSinceSeen, r.temperature, r.humidity, r.pressure, r.accX, r.accY,
    r.accZ, r.batteryMv, r.endpointTimestamp, ())

/-- Pack a header and records. Reference: `tests/pytest/test_uplink_protocol.py:34 make_header`,
`:40 make_record`. -/
def packFragment (header : Header) (records : List Record) : Option (List UInt8) := do
  let head ← headerFmt.pack header.fields
  let body ← recordFmt.packAll (records.map Record.fields)
  some (head ++ body)

/-- The header and the records can be packed as they are, and the header counts the records. -/
structure Packable (header : Header) (records : List Record) : Prop where
  header_inRange : headerFmt.InRange header.fields
  records_inRange : ∀ r ∈ records, recordFmt.InRange r.fields
  recordCount : header.recordCount = records.length
  recordCount_le : records.length ≤ 200

/-- The byte string has a header, whose ninth byte is a plausible record count, and the length that
this count asks for. -/
def Framed (data : List UInt8) : Prop :=
  12 ≤ data.length ∧ (data.getD 8 0).toNat ≤ 200 ∧
    data.length = 12 + 25 * (data.getD 8 0).toNat

/-! ## The header -/

/-- The header that a byte string declares. -/
def declared (data : List UInt8) : Header := .ofFields (headerFmt.read (data.take HEADER_SIZE))

/-- The ninth byte is the record count. -/
theorem declared_recordCount {data : List UInt8} (h : 12 ≤ data.length) :
    (declared data).recordCount = (data.getD 8 0).toNat := by
  have hbyte : ((data.take 12).drop 8).take 1 = [data.getD 8 0] := by
    have hlt : 8 < data.length := by omega
    rw [List.drop_take, List.take_take, List.drop_eq_getElem_cons hlt,
      List.getD_eq_getElem?_getD, List.getElem?_eq_getElem hlt]
    rfl
  show (ofBytesLE (((((((data.take 12).drop 4).drop 2).drop 1).drop 1)).take 1) : Int) = _
  simp only [List.drop_drop, Nat.reduceAdd, hbyte]
  rfl

/-- The header of a byte string that has one is the declared one, or is refused. -/
theorem parseHeader_cases (data : List UInt8) :
    (∃ message, parseHeader data = .error (.protocolError message)) ∧
      (data.length < 12 ∨ 200 < (data.getD 8 0).toNat) ∨
    parseHeader data = .ok (declared data) ∧ 12 ≤ data.length ∧ (data.getD 8 0).toNat ≤ 200 := by
  unfold parseHeader
  by_cases hshort : data.length < HEADER_SIZE
  · rw [if_pos hshort]
    exact .inl ⟨⟨_, rfl⟩, .inl hshort⟩
  · have hlong : 12 ≤ data.length := Nat.not_lt.1 hshort
    have hsize : (data.take HEADER_SIZE).length = headerFmt.calcsize :=
      List.length_take_of_le hlong
    have hcount := declared_recordCount hlong
    rw [if_neg hshort, unpack, Format.unpack_of_length hsize]
    show (∃ message, (if (declared data).recordCount > 200 then _ else _) = _) ∧ _ ∨
      (if (declared data).recordCount > 200 then _ else _) = _ ∧ _
    by_cases hlost : (declared data).recordCount > 200
    · rw [if_pos hlost]
      exact .inl ⟨⟨_, rfl⟩, .inr (by omega)⟩
    · rw [if_neg hlost]
      exact .inr ⟨rfl, hlong, by omega⟩

/-! ## The fragment -/

/-- Where no element fails, a list is mapped element by element. -/
theorem mapM_ok {α β ε : Type} {f : α → Except ε β} {g : α → β} {l : List α}
    (h : ∀ a ∈ l, f a = .ok (g a)) : l.mapM f = .ok (l.map g) := by
  induction l with
  | nil => rfl
  | cons a l ih =>
    rw [List.mapM_cons, h a (.head _), ih fun b hb => h b (.tail _ hb)]
    rfl

/-- The records of a byte string of the right length are read from its slices. -/
theorem parseRecords_eq {data : List UInt8} {n : Nat} (h : data.length = 12 + 25 * n) :
    parseRecords data n =
      .ok ((recordFmt.readAll n (data.drop HEADER_SIZE)).map Record.ofFields) := by
  unfold parseRecords Format.readAll
  rw [List.map_map]
  refine mapM_ok fun i hi => ?_
  have hi := List.mem_range.1 hi
  have hsize : ((data.drop (HEADER_SIZE + i * RECORD_SIZE)).take RECORD_SIZE).length =
      recordFmt.calcsize := by
    show _ = 25
    rw [List.length_take, List.length_drop, calcsizes.1, calcsizes.2]
    omega
  rw [parseRecord, unpack, Format.unpack_of_length hsize, Function.comp_apply, List.drop_drop]
  rfl

/-- Everything the decoder can do: it refuses a byte string that is not framed, with a
`ProtocolError`, and else returns what is read from its slices. -/
theorem parseFragment_cases (data : List UInt8) :
    (∃ message, parseFragment data = .error (.protocolError message)) ∧ ¬ Framed data ∨
    parseFragment data = .ok
      { header := declared data
        records := (recordFmt.readAll (data.getD 8 0).toNat (data.drop HEADER_SIZE)).map
          Record.ofFields
        raw := data } ∧ Framed data := by
  unfold parseFragment
  rcases parseHeader_cases data with ⟨⟨message, hheader⟩, hbad⟩ | ⟨hheader, hlong, hsmall⟩
  · rw [hheader]
    refine .inl ⟨⟨message, rfl⟩, fun hframed => ?_⟩
    obtain ⟨hlong, hsmall, -⟩ := hframed
    omega
  · have hcount : (declared data).recordCount.toNat = (data.getD 8 0).toNat := by
      rw [declared_recordCount hlong, Int.toNat_natCast]
    have hexpected : HEADER_SIZE + (data.getD 8 0).toNat * RECORD_SIZE =
        12 + 25 * (data.getD 8 0).toNat := by
      rw [Nat.mul_comm, calcsizes.1, calcsizes.2]
    rw [hheader]
    dsimp only [bind, Except.bind]
    rw [hcount, hexpected]
    by_cases hlen : data.length = 12 + 25 * (data.getD 8 0).toNat
    · rw [if_neg (not_not_intro hlen), parseRecords_eq hlen]
      exact .inr ⟨rfl, hlong, hsmall, hlen⟩
    · rw [if_pos hlen]
      exact .inl ⟨⟨_, rfl⟩, fun hframed => hlen hframed.2.2⟩

/-- What is read from the slices of a framed byte string is packable, and packs into it. -/
theorem packFragment_declared {data : List UInt8} (h : Framed data) {records : List Record}
    (hrecords : records = (recordFmt.readAll (data.getD 8 0).toNat (data.drop HEADER_SIZE)).map
      Record.ofFields) :
    packFragment (declared data) records = some data := by
  obtain ⟨hlong, -, hlen⟩ := h
  have hhead : (data.take HEADER_SIZE).length = headerFmt.calcsize := List.length_take_of_le hlong
  have hbody : (data.drop HEADER_SIZE).length = (data.getD 8 0).toNat * recordFmt.calcsize := by
    show _ = _ * 25
    rw [List.length_drop, calcsizes.1]
    omega
  have hfields : records.map Record.fields =
      recordFmt.readAll (data.getD 8 0).toNat (data.drop HEADER_SIZE) := by
    rw [hrecords, List.map_map]
    exact List.map_id _
  unfold packFragment
  rw [hfields, Format.packAll_readAll hbody]
  show (headerFmt.pack (headerFmt.read (data.take HEADER_SIZE))).bind _ = _
  rw [(Format.pack_read hhead).2]
  exact congrArg some (List.take_append_drop _ _)

/-- A packable fragment is packed into a framed byte string, whose slices are its header and its
records. -/
theorem packFragment_packable {header : Header} {records : List Record}
    (h : Packable header records) :
    ∃ data, packFragment header records = some data ∧ Framed data ∧ declared data = header ∧
      (recordFmt.readAll (data.getD 8 0).toNat (data.drop HEADER_SIZE)).map Record.ofFields =
        records := by
  have hrows : ∀ vals ∈ records.map Record.fields, recordFmt.InRange vals := by
    intro vals hvals
    obtain ⟨r, hr, rfl⟩ := List.mem_map.1 hvals
    exact h.records_inRange r hr
  obtain ⟨head, hpack, hhead, hread⟩ := Format.pack_inRange h.header_inRange
  have hhead : head.length = HEADER_SIZE := hhead
  obtain ⟨body, hpackAll, hbody, hreadAll⟩ := Format.packAll_inRange hrows
  rw [List.length_map] at hbody hreadAll
  have hlen : (head ++ body).length = 12 + 25 * records.length := by
    rw [List.length_append, hhead, hbody, Nat.mul_comm]
    rfl
  have hdeclared : declared (head ++ body) = header := by
    unfold declared
    rw [List.take_left' hhead, hread]
    rfl
  have hcount : ((head ++ body).getD 8 0).toNat = records.length := by
    have hcount := declared_recordCount (show 12 ≤ (head ++ body).length by omega)
    rw [hdeclared, h.recordCount] at hcount
    exact_mod_cast hcount.symm
  refine ⟨head ++ body, ?_, ⟨by omega, ?_, ?_⟩, hdeclared, ?_⟩
  · unfold packFragment
    rw [hpack, hpackAll]
    rfl
  · rw [hcount]
    exact h.recordCount_le
  · rw [hcount, hlen]
  · rw [hcount, List.drop_left' hhead, hreadAll, List.map_map]
    exact List.map_id _

/-- The decoder accepts the framed byte strings. -/
theorem parseFragment_framed {data : List UInt8} :
    (∃ f, parseFragment data = .ok f) ↔ Framed data := by
  rcases parseFragment_cases data with ⟨⟨message, herror⟩, hnot⟩ | ⟨hok, hframed⟩
  · refine ⟨fun ⟨f, hf⟩ => ?_, fun hframed => absurd hframed hnot⟩
    cases herror.symm.trans hf
  · exact ⟨fun _ => hframed, fun _ => ⟨_, hok⟩⟩

/-- What was packed is decoded. -/
theorem parseFragment_packed {header : Header} {records : List Record}
    (h : Packable header records) :
    ∃ data, packFragment header records = some data ∧
      parseFragment data = .ok { header, records, raw := data } := by
  obtain ⟨data, hpack, hframed, hdeclared, hrecords⟩ := packFragment_packable h
  refine ⟨data, hpack, ?_⟩
  rcases parseFragment_cases data with ⟨-, hnot⟩ | ⟨hok, -⟩
  · exact absurd hframed hnot
  · rw [hok, hdeclared, hrecords]

/-- **The decoder accepts exactly the encodings, and packing inverts it.** A byte string is accepted
exactly if it is framed, and refused with a `ProtocolError` otherwise; what is decoded packs into
the byte string; and what was packed is decoded. -/
theorem parseFragment_inverts :
    (∀ data : List UInt8,
      ((∃ f, parseFragment data = .ok f) ↔ Framed data) ∧
      (∀ f, parseFragment data = .ok f → packFragment f.header f.records = some data) ∧
      (¬ Framed data → ∃ message, parseFragment data = .error (.protocolError message))) ∧
    ∀ header records, Packable header records → ∃ data, packFragment header records = some data ∧
      parseFragment data = .ok { header, records, raw := data } := by
  refine ⟨fun data => ⟨parseFragment_framed, fun f hf => ?_, fun hnot => ?_⟩,
    fun header records h => parseFragment_packed h⟩
  · rcases parseFragment_cases data with ⟨⟨message, herror⟩, -⟩ | ⟨hok, hframed⟩
    · cases herror.symm.trans hf
    · cases hok.symm.trans hf
      exact packFragment_declared hframed rfl
  · rcases parseFragment_cases data with ⟨herror, -⟩ | ⟨-, hframed⟩
    · exact herror
    · exact absurd hframed hnot

end Concentrator.Bench
