import NexusSfu.Rtp.Header

namespace NexusSfu.Rtp

open Base List

namespace Element

structure OneByte (e : Element) : Prop where
  id_ne : e.id ≠ 0
  id_le : e.id ≤ 14
  data_ne : e.data ≠ []
  length_le : e.data.length ≤ maxOneByteLen

def head (id : UInt8) (len : Nat) : UInt8 := id <<< 4 ||| (UInt8.ofNat len - 1)

def encode (e : Element) : Bytes := head e.id e.data.length :: e.data

@[simp] theorem length_encode (e : Element) : e.encode.length = 1 + e.data.length := by
  rw [encode, length_cons, Nat.add_comm]

theorem head_fields {id : UInt8} {len : Nat} (hid : id ≤ 14) (hpos : len ≠ 0)
    (hlen : len ≤ maxOneByteLen) :
    head id len >>> 4 = id ∧ (head id len &&& 0x0F).toNat + 1 = len := by
  have hall : ∀ (i : Fin 15) (k : Fin 16), head (.ofNat i) (k + 1) >>> 4 = .ofNat i ∧
      (head (.ofNat i) (k + 1) &&& 0x0F).toNat = k := by decide +kernel
  have hmax : maxOneByteLen = 16 := rfl
  obtain ⟨k, rfl⟩ := Nat.exists_eq_succ_of_ne_zero hpos
  have hi := hall ⟨id.toNat, by have : id.toNat ≤ 14 := hid; omega⟩ ⟨k, by omega⟩
  simp only [UInt8.ofNat_toNat] at hi
  exact ⟨hi.1, by rw [hi.2]⟩

end Element

def encodeElements (es : List Element) : Bytes := es.flatMap Element.encode

@[simp] theorem encodeElements_nil : encodeElements [] = [] := rfl

@[simp] theorem encodeElements_cons (e : Element) (es : List Element) :
    encodeElements (e :: es) = e.encode ++ encodeElements es := rfl

@[simp] theorem encodeElements_append (es es' : List Element) :
    encodeElements (es ++ es') = encodeElements es ++ encodeElements es' :=
  flatMap_append

theorem encodeElements_eq_nil {es : List Element} : encodeElements es = [] ↔ es = [] := by
  cases es <;> simp [Element.encode]

namespace Elements

theorem next_encode {e : Element} (he : e.OneByte) (rest : Bytes) :
    next ⟨e.encode ++ rest, false⟩ = some (e, ⟨rest, false⟩) := by
  obtain ⟨hid, hlen⟩ := Element.head_fields he.id_le
    (length_pos_iff.2 he.data_ne).ne' he.length_le
  have hne : e.id ≠ 15 := by
    intro h
    exact absurd he.id_le (by rw [h]; decide)
  simp [next, Element.encode, isPadding, hid, he.id_ne, hlen, hne, -UInt8.toNat_and]

theorem next_zeros (k : Nat) : next ⟨List.replicate k 0, false⟩ = none := by
  have hdrop : (List.replicate k (0 : UInt8)).dropWhile (isPadding false) = [] := by
    simp [isPadding]
  simp only [next, hdrop]

theorem collect_encode {es : List Element} (hes : ∀ e ∈ es, e.OneByte) (n k : Nat) :
    collect n ⟨encodeElements es ++ List.replicate k 0, false⟩ = es.take n := by
  induction es generalizing n with
  | nil =>
    cases n with
    | zero => rfl
    | succ n => simp [collect, next_zeros]
  | cons e es ih =>
    cases n with
    | zero => rfl
    | succ n =>
      rw [collect, encodeElements_cons, append_assoc, next_encode (hes e mem_cons_self)]
      simp only [take_succ_cons, ih fun x hx => hes x (mem_cons_of_mem _ hx)]

theorem length_collect_le (n : Nat) (e : Elements) : (collect n e).length ≤ n := by
  induction n generalizing e with
  | zero => exact le_rfl
  | succ n ih =>
    rw [collect]
    cases e.next with
    | none => exact Nat.zero_le _
    | some r => exact Nat.succ_le_succ (ih r.2)

end Elements

def elementsUpTo (n : Nat) (packet : Bytes) (header : RtpHeader) : List Element :=
  let start := 12 + 4 * header.csrcCount.toNat
  let stop := header.headerLenBytes
  let profile := be16 packet start
  let block := slice packet (start + 4) (stop - (start + 4))
  if !header.extension then []
  else if stop < start + 4 ∨ stop > packet.length then []
  else if profile = 0xBEDE then Elements.collect n ⟨block, false⟩
  else if profile &&& 0xFFF0 = 0x1000 then Elements.collect n ⟨block, true⟩
  else []

theorem elements_eq_upTo (packet : Bytes) (header : RtpHeader) :
    elements packet header = elementsUpTo maxElements packet header := rfl

theorem length_elements_le (packet : Bytes) (header : RtpHeader) :
    (elements packet header).length ≤ maxElements := by
  simp only [elements]
  split_ifs
  · exact Nat.zero_le _
  · exact Nat.zero_le _
  · exact Elements.length_collect_le ..
  · exact Elements.length_collect_le ..
  · exact Nat.zero_le _

theorem length_encodeElements_le {es : List Element}
    (h : ∀ e ∈ es, e.data.length ≤ maxOneByteLen) :
    (encodeElements es).length ≤ 17 * es.length := by
  induction es with
  | nil => exact le_rfl
  | cons e es ih =>
    have he := h e mem_cons_self
    have hes := ih fun x hx => h x (mem_cons_of_mem _ hx)
    have hmax : maxOneByteLen = 16 := rfl
    rw [encodeElements_cons, length_append, Element.length_encode, length_cons]
    omega

def extensionBlock (es : List Element) : Bytes :=
  if es = [] then []
  else
    let words := ((encodeElements es).length + 3) / 4
    beBytes 2 0xBEDE ++ beBytes 2 words ++
      (encodeElements es ++ List.replicate (words * 4 - (encodeElements es).length) 0)

theorem length_extensionBlock {es : List Element} (h : es ≠ []) : (extensionBlock es).length =
    4 + ((encodeElements es).length + 3) / 4 * 4 := by
  simp only [extensionBlock, if_neg h, length_append, length_beBytes, length_replicate]
  omega

theorem extensionBlock_pos {es : List Element} : 0 < (extensionBlock es).length ↔ es ≠ [] := by
  constructor
  · rintro h rfl
    simp [extensionBlock] at h
  · intro h
    rw [length_extensionBlock h]
    omega

theorem extensionBlock_read {es : List Element} {b rest : Bytes} {i : Nat} (h : es ≠ [])
    (hd : b.drop i = extensionBlock es ++ rest)
    (hw : ((encodeElements es).length + 3) / 4 < 2 ^ 16) :
    be16 b i = 0xBEDE ∧ (be16 b (i + 2)).toNat = ((encodeElements es).length + 3) / 4 ∧
      slice b (i + 4) (((encodeElements es).length + 3) / 4 * 4) = encodeElements es ++
        List.replicate
          (((encodeElements es).length + 3) / 4 * 4 - (encodeElements es).length) 0 := by
  rw [extensionBlock, if_neg h, append_assoc, append_assoc] at hd
  have h2 := drop_of_drop hd (length_beBytes ..)
  have h4 := drop_of_drop h2 (length_beBytes ..)
  refine ⟨be16_of_slice (x := 0xBEDE) (slice_of_drop hd (length_beBytes ..)), ?_,
    slice_of_drop h4 (by simp; omega)⟩
  rw [be16, slice_of_drop h2 (length_beBytes ..), beNat_beBytes_of_lt hw,
    UInt16.toNat_ofNat_of_lt' hw]

end NexusSfu.Rtp
