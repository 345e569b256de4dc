import Concentrator.Lib.Incremental
import Concentrator.Bench.RoundTrip

/-!
# The bench server

`serve_one()` reads a connection chunk by chunk and takes fragments off the front of its buffer.
What `take_fragment()` does with a buffer depends on no byte after the fragment it takes, or after
the header it refuses (`takeFragment_cases`), so the server is an incremental decoder and its
output does not depend on how TCP cut the stream (`serveOne_chunks`).
-/

namespace Concentrator.Bench

/-- Take a fragment off the front of a buffer, if one is complete. Reference:
`tests/utils/uplink_protocol.py:174 take_fragment`. -/
def takeFragment (buffer : List UInt8) : Except Exception (Option Fragment × List UInt8) := do
  if buffer.length < HEADER_SIZE then .ok (none, buffer)
  else
    let header ← parseHeader buffer
    let total := HEADER_SIZE + header.recordCount.toNat * RECORD_SIZE
    if buffer.length < total then .ok (none, buffer)
    else
      let fragment ← parseFragment (buffer.take total)
      .ok (some fragment, buffer.drop total)

/-- The length of the fragment at the front of a buffer, by its ninth byte. -/
def frontLength (buffer : List UInt8) : Nat := 12 + 25 * (buffer.getD 8 0).toNat

theorem getD_append {buffer : List UInt8} (h : 12 ≤ buffer.length) (more : List UInt8) :
    (buffer ++ more).getD 8 0 = buffer.getD 8 0 := by
  rw [List.getD_eq_getElem?_getD, List.getD_eq_getElem?_getD, List.getElem?_append_left (by omega)]

/-- A header is decoded from the first twelve bytes alone. -/
theorem parseHeader_append {buffer : List UInt8} (h : 12 ≤ buffer.length) (more : List UInt8) :
    parseHeader (buffer ++ more) = parseHeader buffer := by
  have hlong : ¬ buffer.length < HEADER_SIZE := Nat.not_lt.2 h
  have hmore : ¬ (buffer ++ more).length < HEADER_SIZE := by
    rw [List.length_append]
    omega
  unfold parseHeader
  rw [if_neg hlong, if_neg hmore, List.take_append_of_le_length (Nat.not_lt.1 hlong)]

/-- Everything `take_fragment()` can do: it refuses the header, asks for more, or takes the framed
bytes at the front. -/
theorem takeFragment_cases (buffer : List UInt8) :
    (∃ e, takeFragment buffer = .error e ∧ 12 ≤ buffer.length ∧ parseHeader buffer = .error e) ∨
    (takeFragment buffer = .ok (none, buffer) ∧
      (buffer.length < 12 ∨
        (buffer.getD 8 0).toNat ≤ 200 ∧ buffer.length < frontLength buffer)) ∨
    (∃ f, takeFragment buffer = .ok (some f, buffer.drop (frontLength buffer)) ∧
      frontLength buffer ≤ buffer.length ∧ (buffer.getD 8 0).toNat ≤ 200 ∧
      parseFragment (buffer.take (frontLength buffer)) = .ok f) := by
  unfold takeFragment
  by_cases hshort : buffer.length < HEADER_SIZE
  · rw [if_pos hshort]
    exact .inr (.inl ⟨rfl, .inl hshort⟩)
  have hlong : 12 ≤ buffer.length := Nat.not_lt.1 hshort
  rw [if_neg hshort]
  rcases parseHeader_cases buffer with ⟨⟨message, hheader⟩, -⟩ | ⟨hheader, -, hsmall⟩
  · rw [hheader]
    exact .inl ⟨_, rfl, hlong, rfl⟩
  have htotal : HEADER_SIZE + (declared buffer).recordCount.toNat * RECORD_SIZE =
      frontLength buffer := by
    rw [declared_recordCount hlong, Int.toNat_natCast, frontLength, Nat.mul_comm, calcsizes.1,
      calcsizes.2]
  rw [hheader]
  dsimp only [bind, Except.bind]
  rw [htotal]
  by_cases hmore : buffer.length < frontLength buffer
  · rw [if_pos hmore]
    exact .inr (.inl ⟨rfl, .inr ⟨hsmall, hmore⟩⟩)
  rw [if_neg hmore]
  have hlen : (buffer.take (frontLength buffer)).length = frontLength buffer :=
    List.length_take_of_le (Nat.not_lt.1 hmore)
  have hbyte : (buffer.take (frontLength buffer)).getD 8 0 = buffer.getD 8 0 := by
    have hfront : 12 ≤ (buffer.take (frontLength buffer)).length := by
      rw [hlen, frontLength]
      omega
    rw [← getD_append hfront (buffer.drop (frontLength buffer)), List.take_append_drop]
  have hframed : Framed (buffer.take (frontLength buffer)) := by
    rw [Framed, hlen, hbyte]
    exact ⟨Nat.le_add_right _ _, hsmall, rfl⟩
  obtain ⟨f, hf⟩ := parseFragment_framed.2 hframed
  rw [hf]
  exact .inr (.inr ⟨f, rfl, Nat.not_lt.1 hmore, hsmall, rfl⟩)

/-- `take_fragment()` as a decoder: every fragment takes at least a header. -/
def fragmentDecoder : Decoder UInt8 Fragment Exception where
  take := takeFragment
  take_lt buffer item rest h := by
    rcases takeFragment_cases buffer with ⟨e, he, -⟩ | ⟨hnone, -⟩ | ⟨f, hsome, hle, -⟩
    · cases he.symm.trans h
    · cases hnone.symm.trans h
    · cases hsome.symm.trans h
      have hpos : 12 ≤ frontLength buffer := Nat.le_add_right _ _
      rw [List.length_drop]
      omega

/-- No byte after the fragment taken or the header refused plays a part. -/
theorem fragmentDecoder_incremental : fragmentDecoder.Incremental where
  item {buffer item rest} more h := by
    change takeFragment buffer = _ at h
    rcases takeFragment_cases buffer with ⟨e, he, -⟩ | ⟨hnone, -⟩ | ⟨f, hsome, hle, hsmall, hf⟩
    · cases he.symm.trans h
    · cases hnone.symm.trans h
    cases hsome.symm.trans h
    have hlong : 12 ≤ buffer.length := Nat.le_trans (Nat.le_add_right _ _) hle
    have hfront : frontLength (buffer ++ more) = frontLength buffer := by
      rw [frontLength, getD_append hlong, frontLength]
    have hdrop : (buffer ++ more).drop (frontLength buffer) =
        buffer.drop (frontLength buffer) ++ more := List.drop_append_of_le_length hle
    show takeFragment (buffer ++ more) = _
    rcases takeFragment_cases (buffer ++ more) with ⟨e, -, -, he⟩ | ⟨-, hshort⟩ |
      ⟨f', hsome', -, -, hf'⟩
    · rw [parseHeader_append hlong] at he
      rcases parseHeader_cases buffer with ⟨-, hbad⟩ | ⟨hok, -, -⟩
      · omega
      · cases he.symm.trans hok
    · rw [hfront, List.length_append] at hshort
      omega
    · rw [hfront, List.take_append_of_le_length hle, hf] at hf'
      cases hf'
      rw [hsome', hfront, hdrop]
  failure {buffer e} more h := by
    change takeFragment buffer = _ at h
    rcases takeFragment_cases buffer with ⟨e', he, hlong, hheader⟩ | ⟨hnone, -⟩ | ⟨f, hsome, -⟩
    · cases he.symm.trans h
      show takeFragment (buffer ++ more) = _
      have hshort : ¬ (buffer ++ more).length < HEADER_SIZE := by
        rw [List.length_append, calcsizes.1]
        omega
      unfold takeFragment
      rw [if_neg hshort, parseHeader_append hlong, hheader]
      rfl
    · cases hnone.symm.trans h
    · cases hsome.symm.trans h
  waits {buffer rest} h := by
    change takeFragment buffer = _ at h
    rcases takeFragment_cases buffer with ⟨e, he, -⟩ | ⟨hnone, -⟩ | ⟨f, hsome, -⟩
    · cases he.symm.trans h
    · cases hnone.symm.trans h
      rfl
    · cases hsome.symm.trans h

/-- Serve one connection: the chunks are what `recv()` returns until the peer closes. The reading
has the fragments that were printed, and the error that ended it or the bytes left in the buffer.
Reference: `tests/utils/uplink_server.py:110 serve_one`. -/
def serveOne (chunks : List (List UInt8)) : Decoder.Reading UInt8 Fragment Exception :=
  fragmentDecoder.feed chunks []

/-- The fragment is packed as it is. -/
structure Fragment.Packed (f : Fragment) : Prop where
  packable : Packable f.header f.records
  pack : packFragment f.header f.records = some f.raw

/-- A packed fragment at the front of a buffer is taken. -/
theorem Fragment.Packed.take {f : Fragment} (h : f.Packed) (rest : List UInt8) :
    takeFragment (f.raw ++ rest) = .ok (some f, rest) := by
  obtain ⟨data, hpack, hparse⟩ := parseFragment_packed h.packable
  obtain rfl : f.raw = data := by
    cases h.pack.symm.trans hpack
    rfl
  obtain ⟨hlong, hsmall, hlen⟩ := parseFragment_framed.1 ⟨_, hparse⟩
  have hfront : frontLength (f.raw ++ rest) = f.raw.length := by
    rw [frontLength, getD_append hlong, hlen]
  rcases takeFragment_cases (f.raw ++ rest) with ⟨e, -, -, he⟩ | ⟨-, hshort⟩ |
    ⟨f', hsome, -, -, hf'⟩
  · rw [parseHeader_append hlong] at he
    rcases parseHeader_cases f.raw with ⟨-, hbad⟩ | ⟨hok, -, -⟩
    · omega
    · cases he.symm.trans hok
  · rw [hfront, List.length_append] at hshort
    omega
  · rw [hfront, List.take_left, hparse] at hf'
    cases hf'
    rw [hsome, hfront, List.drop_left]

/-- A stream of packed fragments is taken apart into them. The induction is on the fragments. -/
theorem drain_packed {fragments : List Fragment} (h : ∀ f ∈ fragments, f.Packed) :
    fragmentDecoder.drain (fragments.flatMap Fragment.raw) = ⟨fragments, .ok []⟩ := by
  induction fragments with
  | nil =>
    have hwait : fragmentDecoder.take [] = .ok (none, []) := rfl
    rcases fragmentDecoder.drain_cases [] with ⟨e, he, -⟩ | ⟨rest, hrest, hdrain⟩ | ⟨f, rest, hf, -⟩
    · cases hwait.symm.trans he
    · cases hwait.symm.trans hrest
      exact hdrain
    · cases hwait.symm.trans hf
  | cons f fragments ih =>
    rw [List.flatMap_cons, Decoder.drain_item ((h f (.head _)).take _),
      ih fun f' hf' => h f' (.tail _ hf')]
    rfl

/-- **Decoding does not depend on the cuts.** Whatever the stream and however it is cut, the server
prints the same fragments, and fails in the same way or is left with the same bytes, as if the
whole stream came in one chunk; and a stream of packed fragments gives these fragments and leaves
nothing. -/
theorem serveOne_chunks :
    (∀ chunks, serveOne chunks = serveOne [chunks.flatten]) ∧
    ∀ fragments : List Fragment, (∀ f ∈ fragments, f.Packed) →
      ∀ chunks, chunks.flatten = fragments.flatMap Fragment.raw →
        serveOne chunks = ⟨fragments, .ok []⟩ := by
  have hnone : ∀ f ∈ ([] : List Fragment), f.Packed := fun _ hf => (List.not_mem_nil hf).elim
  have hstart : fragmentDecoder.drain [] = ⟨[], .ok []⟩ := drain_packed hnone
  have hfeed (chunks : List (List UInt8)) :
      serveOne chunks = fragmentDecoder.drain chunks.flatten := by
    unfold serveOne
    rw [fragmentDecoder_incremental.feed_eq chunks hstart, List.nil_append]
  refine ⟨fun chunks => ?_, fun fragments hpacked chunks hstream => ?_⟩
  · rw [hfeed, hfeed, List.flatten_singleton]
  · rw [hfeed, hstream, drain_packed hpacked]

end Concentrator.Bench
