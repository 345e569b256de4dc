import Concentrator.Comms.Discipline
import Concentrator.Acquisition.Pool
import Concentrator.Acquisition.Grammar

/-!
# The relay is verbatim

A record that leaves for the network is a copy of what the last report of its address brought, as of
the snapshot the fragment was cut from (`Relayed`). The fields cross four structures on the way, and
each of them only copies: byte for byte, the payload of the record is the payload of the report
(`relay_verbatim`).
-/

namespace Concentrator.Comms

open Threaded Acquisition

variable {ρ : Type}

/-! ## What a copy carries -/

/-- The signal strength and the reading of the latest report of an address. -/
def lastUpserted (address : Address) : List (LogItem ρ) → Option (Int8 × ρ)
  | [] => none
  | .upserted address' rssi reading :: log =>
    if address' = address then some (rssi, reading) else lastUpserted address log
  | _ :: log => lastUpserted address log

/-- The log as it was at the latest snapshot. -/
def beforeScan : List (LogItem ρ) → List (LogItem ρ)
  | [] => []
  | .scanned .. :: log => log
  | _ :: log => beforeScan log

/-- An entry holds what the latest report of its address brought. -/
def Recorded (log : List (LogItem ρ)) (e : Entry ρ) : Prop :=
  lastUpserted e.address log = some (e.rssi, e.reading)

/-- What was handed to the link is what the latest reports before the snapshot had brought. -/
def Relayed : List (LogItem ρ) → Prop
  | [] => True
  | .sent uplink _ :: log => (∀ e ∈ uplink.entries, Recorded (beforeScan log) e) ∧ Relayed log
  | _ :: log => Relayed log

/-- The table, the copies and the log agree with the reports. -/
structure RelayInv {cfg : Config} (unsent _unmarked : List (Entry ρ)) (w : World ρ cfg) : Prop where
  table : ∀ e ∈ w.table.entries, e.inUse = true → Recorded w.log e
  copies : ∀ e ∈ unsent, Recorded (beforeScan w.log) e
  sent : Relayed w.log

/-- An upsert writes what its report brought, and to no other address's entry. -/
theorem RelayInv.upsert [AsReading ρ] {cfg : Config} {unsent unmarked : List (Entry ρ)}
    {w : World ρ cfg} (h : RelayInv unsent unmarked w) (address : Address) (rssi : Int8)
    (reading : Reading) : RelayInv unsent unmarked ((Act.upsert address rssi reading).run w) := by
  refine ⟨fun e he huse => ?_, h.copies, h.sent⟩
  rcases w.table.wf.mem_upsert he with ⟨b, hb, -, rfl⟩ | ⟨hold, hnot⟩
  · exact if_pos hb.2.symm
  · have hne : address ≠ e.address := fun heq => hnot ⟨huse, heq.symm⟩
    exact (if_neg hne).trans (h.table e hold huse)

/-- An acknowledgement leaves what the entries hold. -/
theorem RelayInv.mark {cfg : Config} {unsent unmarked : List (Entry ρ)} {w : World ρ cfg}
    (h : RelayInv unsent unmarked w) (address : Address) (updateSeq : UInt16) :
    RelayInv unsent unmarked { w with table := w.table.markReported address updateSeq } := by
  refine ⟨fun e he huse => ?_, h.copies, h.sent⟩
  rcases w.table.wf.mem_markReported he with ⟨e₀, he₀, -, -, rfl⟩ | ⟨hold, -⟩
  · exact h.table e₀ he₀ huse
  · exact h.table e hold huse

/-- What the copies carry is a discipline of every run. -/
theorem relayDiscipline [AsReading ρ] {cfg : Config} :
    Discipline (Guard.all (M := cycles ρ cfg)) RelayInv where
  stable x w _ h := by
    cases x with
    | upsert address rssi reading => exact h.upsert address rssi reading
    | tick seconds => exact ⟨h.table, h.copies, h.sent⟩
    | dropReport => exact ⟨h.table, h.copies, h.sent⟩
  neutral o view ho h := by
    cases o with
    | send | scan | markReported => exact ho.elim
    | modify f => exact ⟨h.table, h.copies, h.sent⟩
    | _ => exact h
  began h := ⟨h.table, h.copies, h.sent⟩
  scan nowS view h := by
    refine ⟨h.table, fun e he => ?_, h.sent⟩
    obtain ⟨hmem, huse, -⟩ := Table.mem_scan he
    exact h.table e hmem huse
  accept uplink h :=
    ⟨h.table, fun e he => h.copies e (List.mem_append_right _ he),
      fun e he => h.copies e (List.mem_append_left _ he), h.sent⟩
  refuse uplink result _ h :=
    ⟨h.table, fun _ he => (List.not_mem_nil he).elim,
      fun e he => h.copies e (List.mem_append_left _ he), h.sent⟩
  mark view _ h := RelayInv.mark ⟨h.table, h.copies, h.sent⟩ _ _
  leave h := ⟨h.table, fun _ he => (List.not_mem_nil he).elim, h.sent⟩

/-- In every run, what is handed to the link is what the reports brought. -/
theorem relayed_of_reach [AsReading ρ] {cfg : Config} {c : (cycles ρ cfg).Conf}
    (h : Reach Guard.all booted c) : Relayed c.state.log := by
  have hboot : RelayInv [] [] (World.boot : World ρ cfg) :=
    ⟨fun e he huse => absurd huse (World.boot_free he), fun _ he => (List.not_mem_nil he).elim,
      trivial⟩
  obtain ⟨_, _, hc⟩ := relayDiscipline.reach rfl hboot h
  exact hc.sent

/-! ## Reading the log -/

theorem relayed_sent {newer log : List (LogItem ρ)} {uplink : Uplink ρ} {result : LinkError}
    (h : Relayed (newer ++ .sent uplink result :: log)) :
    ∀ e ∈ uplink.entries, Recorded (beforeScan log) e := by
  induction newer with
  | nil => exact h.1
  | cons item newer ih =>
    cases item with
    | sent => exact ih h.2
    | upserted | began | scanned => exact ih h

theorem beforeScan_append {mid log : List (LogItem ρ)} (h : ∀ item ∈ mid, item.NotScan)
    {table : Table ρ} {nowS : UInt32} {snapshot : List (Entry ρ)} :
    beforeScan (mid ++ .scanned table nowS snapshot :: log) = log := by
  induction mid with
  | nil => rfl
  | cons item mid ih =>
    obtain ⟨hitem, hmid⟩ := List.forall_mem_cons.1 h
    cases item with
    | scanned => exact hitem.elim
    | upserted | began | sent => exact ih hmid

theorem lastUpserted_append {address : Address} {mid log : List (LogItem ρ)}
    (h : ∀ rssi reading, .upserted address rssi reading ∉ mid) {rssi : Int8} {reading : ρ} :
    lastUpserted address (mid ++ .upserted address rssi reading :: log) = some (rssi, reading) := by
  induction mid with
  | nil => exact if_pos rfl
  | cons item mid ih =>
    have hmid := ih fun rssi reading hm => h rssi reading (.tail _ hm)
    cases item with
    | upserted address' rssi' reading' =>
      have hne : address' ≠ address := by
        rintro rfl
        exact h rssi' reading' (.head _)
      exact (if_neg hne).trans hmid
    | began | scanned | sent => exact hmid

/-! ## Bytes -/

/-- One of the equal parts of a concatenation. -/
theorem flatMap_part {α β : Type} {n : Nat} {g : α → List β} (hg : ∀ a, (g a).length = n) {k : Nat}
    {l : List α} {a : α} (h : l[k]? = some a) : ((l.flatMap g).drop (n * k)).take n = g a := by
  induction l generalizing k with
  | nil => cases h
  | cons b l ih =>
    rw [List.flatMap_cons]
    cases k with
    | zero =>
      cases h
      rw [Nat.mul_zero, List.drop_zero, List.take_left' (hg _)]
    | succ k =>
      rw [Nat.mul_succ, Nat.add_comm, ← List.drop_drop, List.drop_left' (hg b)]
      exact ih h

/-- The record at a place of a fragment. -/
theorem Fragment.record_bytes [AsReading ρ] {f : Fragment ρ} {k : Nat} {e : Entry ρ}
    (h : f.entries[k]? = some e) :
    (f.bytes.drop (12 + 26 * k)).take 26 = EndpointRecord.layout.pack (toRecord e f.nowS) := by
  have hheader : (UplinkHeader.layout.pack f.header).length = 12 :=
    UplinkHeader.layout.length_pack _
  have hrecord : f.records[k]? = some (toRecord e f.nowS) := by
    rw [records, List.getElem?_map, h]
    rfl
  rw [bytes, ← List.drop_drop, List.drop_left' hheader]
  exact flatMap_part (fun r => EndpointRecord.layout.length_pack r) hrecord

/-- The bytes of a record: the address, the signal strength, the age, and the payload of the
endpoint, which is laid out as in its advertisement. -/
theorem pack_toRecord {e : Entry Reading} {frame : ManufacturerFrame}
    (h : e.reading = toReading frame) (nowS : UInt32) :
    EndpointRecord.layout.pack (toRecord e nowS) =
      e.address.bytes ++ (Layout.i8.pack e.rssi ++
        (Layout.u16.pack (toRecord e nowS).secondsSinceSeen ++
          SensorPayload.layout.pack frame.sensorData)) := by
  have hreading : AsReading.reading e.reading = toReading frame := h
  unfold toRecord
  rw [hreading]
  rfl

/-- The report of a frame of ours, as what the acquisition thread does with it. -/
def actOfReport (cfg : Config) (report : AdvReport) : Option Act :=
  (parseCustomFrame cfg report).map fun frame =>
    .upsert report.address report.rssi (toReading frame)

/-- That is what becomes of a report taken from the pool: what the drain loop hands to the table. -/
theorem actOfReport_run {cfg : Config} {report : AdvReport} {act : Act}
    (h : actOfReport cfg report = some act) (w : World Reading cfg) :
    (act.run w).table = processReport report w.uptime w.table := by
  unfold actOfReport at h
  obtain ⟨frame, hframe, rfl⟩ := Option.map_eq_some_iff.1 h
  unfold processReport
  rw [hframe]
  rfl

/-- The payload of a frame that the parser accepts, laid out again. -/
theorem pack_sensorData {cfg : Config} {report : AdvReport} {frame : ManufacturerFrame}
    {lo hi : UInt8} {payload : List UInt8} (hframe : parseCustomFrame cfg report = some frame)
    (hvalue : ManufacturerValue report.data (lo :: hi :: payload)) :
    SensorPayload.layout.pack frame.sensorData = payload := by
  have hparse : parseCustomFrame cfg report = frameOfValue cfg (lo :: hi :: payload) :=
    parseFrom_value [] hvalue
  rw [hframe, frameOfValue] at hparse
  split at hparse
  · next hsize =>
    cases hparse
    have hlen : payload.length + 2 = 19 := hsize.1
    exact SensorPayload.layout.pack_unpack payload (by omega : payload.length = 17)
  · cases hparse

/-- **The relay is verbatim.** In any run, let the acquisition thread process a report that the
parser accepts; then take a later snapshot with no report of the same address between them, and a
fragment handed to the link before the next snapshot. Each record of the fragment's bytes that
begins with the address has the report's signal strength as its seventh byte, and as its last
seventeen bytes those that followed the company identifier in the report. -/
theorem relay_verbatim {cfg : Config} {c₀ c : (cycles Reading cfg).Conf}
    (hc₀ : Reach Guard.all booted c₀) {report : AdvReport} {act : Act}
    (hact : actOfReport cfg report = some act) {lo hi : UInt8} {payload : List UInt8}
    (hvalue : ManufacturerValue report.data (lo :: hi :: payload))
    (hc : Reach Guard.all ⟨act.run c₀.state, c₀.running⟩ c)
    (newer mid mid' : List (LogItem Reading)) {f : Fragment Reading} {result : LinkError}
    {table : Table Reading} {nowS : UInt32} {snapshot : List (Entry Reading)}
    (hlog : c.state.log = newer ++ .sent (.fragment f) result ::
      (mid ++ .scanned table nowS snapshot :: (mid' ++ (act.run c₀.state).log)))
    (hmid : ∀ item ∈ mid, item.NotScan)
    (hmid' : ∀ rssi reading, .upserted report.address rssi reading ∉ mid')
    {k : Nat} (hk : k < f.entries.length)
    (haddress : ((f.bytes.drop (12 + 26 * k)).take 26).take 6 = report.address.bytes) :
    (act.run c₀.state).table = processReport report c₀.state.uptime c₀.state.table ∧
      ((f.bytes.drop (12 + 26 * k)).take 26)[6]? = some report.rssi.toUInt8 ∧
      ((f.bytes.drop (12 + 26 * k)).take 26).drop 9 = payload := by
  refine ⟨actOfReport_run hact c₀.state, ?_⟩
  have hprocessed : Reach Guard.all c₀ ⟨act.run c₀.state, c₀.running⟩ :=
    Reach.refl.step (l := .other act) trivial rfl
  have hrelayed := relayed_of_reach ((hc₀.trans hprocessed).trans hc)
  obtain ⟨frame, hframe, rfl⟩ := Option.map_eq_some_iff.1 hact
  have hk' := List.getElem?_eq_getElem hk
  generalize f.entries[k] = e at hk'
  rw [hlog] at hrelayed
  have hrec := relayed_sent hrelayed e (List.mem_of_getElem? hk')
  rw [beforeScan_append hmid] at hrec
  rw [Fragment.record_bytes hk'] at haddress ⊢
  have haddr : e.address = report.address := by
    refine Address.ext (Eq.trans ?_ haddress)
    exact (List.take_left' e.address.size).symm
  rw [Recorded, haddr, Act.run, lastUpserted_append hmid'] at hrec
  obtain ⟨hrssi, hreading⟩ := Prod.mk.inj (Option.some.inj hrec)
  rw [pack_toRecord hreading.symm, pack_sensorData hframe hvalue, haddr, hrssi]
  have hlen : report.address.bytes.length = 6 := report.address.size
  constructor
  · rw [List.getElem?_append_right (by omega), hlen, Layout.i8_pack]
    rfl
  · have hdrop : (9 : Nat) = 6 + 3 := rfl
    rw [hdrop, ← List.drop_drop, List.drop_left' hlen]
    rfl

/-- The seventeen bytes 0 to 16. -/
def samplePayload : List UInt8 := (List.range 17).map UInt8.ofNat

/-- An advertisement with flags and then a frame of ours. -/
def sampleReport : AdvReport where
  address := .ofByte 7
  addressType := 1
  rssi := -42
  data := [2, 1, 6, 20, 0xFF, 0xB2, 0x04] ++ samplePayload
  data_length_le := by decide

/-- The frame of that advertisement. -/
def sampleFrame : ManufacturerFrame :=
  ⟨0x04B2, SensorPayload.layout.unpack samplePayload⟩

theorem sampleReport_value :
    ManufacturerValue sampleReport.data (0xB2 :: 0x04 :: samplePayload) := by
  refine ⟨[⟨1, [6], by decide⟩], ⟨0xFF, 0xB2 :: 0x04 :: samplePayload, by decide⟩, [], ?_, rfl, rfl,
    by decide⟩
  exact List.forall_mem_singleton.2 (by decide)

theorem sampleReport_frame :
    parseCustomFrame (.ofDevices 1) sampleReport = some sampleFrame :=
  parseCustomFrame_some.2 ⟨_, sampleReport_value, by decide⟩

/-- What the acquisition thread does with that advertisement. -/
def sampleAct : Act := .upsert sampleReport.address sampleReport.rssi (toReading sampleFrame)

theorem sampleReport_act : actOfReport (.ofDevices 1) sampleReport = some sampleAct := by
  rw [actOfReport, sampleReport_frame]
  rfl

/-- The record of that advertisement, in the fragment that the next cycle hands to the link. -/
theorem relay_verbatim_sample : ∃ (c : (cycles Reading (.ofDevices 1)).Conf) (f : Fragment Reading),
    c.state.log.head? = some (.sent (.fragment f) .noError) ∧
      ((f.bytes.drop (12 + 26 * 0)).take 26)[6]? = some sampleReport.rssi.toUInt8 ∧
      ((f.bytes.drop (12 + 26 * 0)).take 26).drop 9 = samplePayload := by
  obtain ⟨c, hc, hlog⟩ : ∃ c : (cycles Reading (.ofDevices 1)).Conf,
      run (.start :: List.replicate 12 (.call openLink)) ⟨sampleAct.run World.boot, none⟩ = some c ∧
      ∃ f table nowS snapshot, c.state.log = [.sent (.fragment f) .noError,
        .scanned table nowS snapshot, .began,
        .upserted sampleReport.address sampleReport.rssi (toReading sampleFrame)] ∧
      0 < f.entries.length ∧
      ((f.bytes.drop (12 + 26 * 0)).take 26).take 6 = sampleReport.address.bytes :=
    ⟨_, rfl, _, _, _, _, rfl, by decide, by decide⟩
  obtain ⟨f, table, nowS, snapshot, hlog, hk, haddress⟩ := hlog
  refine ⟨c, f, by rw [hlog]; rfl, ?_⟩
  have hbooted : Reach Guard.all (booted : (cycles Reading (.ofDevices 1)).Conf) booted := .refl
  exact (relay_verbatim hbooted sampleReport_act sampleReport_value (Reach.of_run hc) [] [] [.began]
    hlog (fun _ hm => (List.not_mem_nil hm).elim)
    (fun _ _ hm => nomatch List.mem_singleton.1 hm) hk haddress).2

end Concentrator.Comms
