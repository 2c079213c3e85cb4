import NexusSfu.Dataplane.Shard.Addresses
import NexusSfu.Dataplane.Shard.Ownership

namespace NexusSfu.Dataplane

open Base Prog Srtp List Option

namespace Session

variable {s v : Session}

def core (s : Session) : Session :=
  { s with
    lastRxSelected := 0, lastSwitch := none, dtlsBudget := 0
    recentTransactions := Vector.replicate _ (Vector.replicate _ 0), recentLen :=
      0, nextTransaction := ⟨0, by decide⟩ }

theorem wellFormed_core : s.core.WellFormed ↔ s.WellFormed :=
  ⟨fun h => ⟨h.ssrcs_nodup, h.trackCount_le, h.subs_le, h.addr_ne, h.nomination_ne,
    h.srtp_iff, h.inbound⟩, fun h => ⟨h.ssrcs_nodup, h.trackCount_le, h.subs_le, h.addr_ne,
    h.nomination_ne, h.srtp_iff, h.inbound⟩⟩

theorem Quiet.of_core (h : v.core = s.core) : s.Quiet v where
  links := (congrArg Session.links h :)
  reported := (congrArg Session.reported h :)
  wellFormed hs := wellFormed_core.1 (h ▸ wellFormed_core.2 hs)
  sends _ hs := hs.of_eq (congrArg Session.outSsrcBase h :) (congrArg Session.lastOutSsrcOffset h :)
    (congrArg Session.srtpOut h :)

theorem Quiet.outbound {o o' : SrtpOutbound} (h : s.srtpOut = some o) (ho : o'.shape = o.shape) :
    s.Quiet { s with srtpOut := some o' } where
  links := rfl
  reported := rfl
  wellFormed hs := ⟨hs.ssrcs_nodup, hs.trackCount_le, hs.subs_le, hs.addr_ne, hs.nomination_ne,
    by rw [hs.srtp_iff, h]; rfl, hs.inbound⟩
  sends out hs := by
    refine ⟨hs.increasing, hs.offset, hs.last_le, ?_⟩
    rintro _ ⟨⟩
    exact (hs.outbound o h).of_shape ho

theorem Quiet.inbound {i i' : SrtpInbound} (h : s.srtpIn = some i)
    (hi : ∀ ssrcs, i.Mirrors ssrcs → i'.Mirrors ssrcs) :
    s.Quiet { s with srtpIn := some i' } where
  links := rfl
  reported := rfl
  wellFormed hs := by
    refine ⟨hs.ssrcs_nodup, hs.trackCount_le, hs.subs_le, hs.addr_ne, hs.nomination_ne, ?_, ?_⟩
    · rw [← hs.srtp_iff, h]
      rfl
    · rintro _ ⟨⟩
      exact hi _ (hs.inbound i h)
  sends _ hs := hs.of_eq rfl rfl rfl

end Session

namespace Shard

variable {ι ε : Type} {s s' s'' s₀ : Shard ι ε} {held : List Nat} {k x : Key} {b n : Nat}

structure Sound (held : List Nat) (s : Shard ι ε) : Prop where
  tables : s.tables.Inv s.config.maxSessions
  net : s.net.Owned held
  limit : s.config.maxSessions ≤ Tables.maxWebrtcSessions
  pending_le : s.outbox.pending.length ≤ eventRetention

structure KeepsOutbox (s s' : Shard ι ε) : Prop where
  config : s'.config = s.config
  tables : s.tables.Quiet s'.tables
  outbox : s'.outbox = s.outbox
  full : s'.counters .dropEventFull = s.counters .dropEventFull
  rx : s'.net.rx = s.net.rx
  capacity : s'.net.pool.capacity = s.net.pool.capacity

theorem KeepsOutbox.refl (s : Shard ι ε) : s.KeepsOutbox s :=
  ⟨rfl, .refl _, rfl, rfl, rfl, rfl⟩

theorem KeepsOutbox.trans (h : s.KeepsOutbox s') (h' : s'.KeepsOutbox s'') : s.KeepsOutbox s'' :=
  ⟨h'.config.trans h.config, h.tables.trans h'.tables, h'.outbox.trans h.outbox,
    h'.full.trans h.full, h'.rx.trans h.rx, h'.capacity.trans h.capacity⟩

structure StaysSound (held : List Nat) (s₀ s : Shard ι ε) : Prop where
  sound : s.Sound held
  keepsOutbox : s₀.KeepsOutbox s

theorem Sound.stays (h : s.Sound held) : StaysSound held s s := ⟨h, .refl s⟩

theorem StaysSound.trans {held' : List Nat} (h : StaysSound held s₀ s)
    (h' : StaysSound held' s s') : StaysSound held' s₀ s' :=
  ⟨h'.sound, h.keepsOutbox.trans h'.keepsOutbox⟩

theorem StaysSound.step {held' : List Nat} (h : StaysSound held s₀ s)
    (hconfig : s'.config = s.config) (htables : s.tables.Quiet s'.tables)
    (houtbox : s'.outbox = s.outbox)
    (hfull : s'.counters .dropEventFull = s.counters .dropEventFull) (hrx : s'.net.rx = s.net.rx)
    (hcap : s'.net.pool.capacity = s.net.pool.capacity) (hnet : s'.net.Owned held') :
    StaysSound held' s₀ s' := by
  refine ⟨⟨?_, hnet, hconfig ▸ h.sound.limit, houtbox ▸ h.sound.pending_le⟩,
    h.keepsOutbox.trans ⟨hconfig, htables, houtbox, hfull, hrx, hcap⟩⟩
  rw [hconfig]
  exact h.sound.tables.quiet htables

theorem KeepsOutbox.session {r : Session} (h : s.KeepsOutbox s')
    (hr : s.tables.sessions.get k = some r) :
    ∃ r', s'.tables.sessions.get k = some r' ∧ r.Quiet r' :=
  h.tables.some k r hr

theorem KeepsOutbox.track {tr : PublishedTrack} (h : s.KeepsOutbox s')
    (htr : s.tables.tracks.get k = some tr) :
    ∃ tr', s'.tables.tracks.get k = some tr' ∧ tr'.subscribers = tr.subscribers :=
  h.tables.track htr

theorem trackOfSsrc_mem {r : Session} {ssrc : UInt32} (h : r.trackOfSsrc ssrc = some x) :
    x ∈ r.tracks := by
  obtain ⟨p, hp, rfl⟩ := map_eq_some_iff.1 h
  exact mem_append_left _ (mem_map_of_mem (mem_of_find?_eq_some hp))

section Steps

theorem ends_addTo {c : Counter} (h : StaysSound held s₀ s) (hc : c ≠ .dropEventFull)
    {Q : Unit → Shard ι ε → Prop}
    (hq : ∀ s', StaysSound held s₀ s' → s'.tables = s.tables → s'.net = s.net → Q () s') :
    Ends (addTo c n) s Q := by
  refine ends_modify.2 (hq _ (h.step rfl (.refl _) rfl ?_ rfl rfl h.sound.net) rfl rfl)
  exact Function.update_of_ne hc.symm ..

theorem ends_count {c : Counter} (h : StaysSound held s₀ s) (hc : c ≠ .dropEventFull)
    {Q : Unit → Shard ι ε → Prop}
    (hq : ∀ s', StaysSound held s₀ s' → s'.tables = s.tables → s'.net = s.net → Q () s') :
    Ends (count c) s Q :=
  ends_addTo h hc hq

theorem ends_readSession {r : Session} (hr : s.tables.sessions.get k = some r)
    {Q : Session → Shard ι ε → Prop} (hq : Q r s) : Ends (onTables (Tables.session k)) s Q :=
  ends_zoom.2 (Tables.ends_session hr hq)

theorem ends_readTrack {tr : PublishedTrack} (htr : s.tables.tracks.get k = some tr)
    {Q : PublishedTrack → Shard ι ε → Prop} (hq : Q tr s) :
    Ends (onTables (Tables.track k)) s Q :=
  ends_zoom.2 (Tables.ends_track htr hq)

theorem ends_readSub {sub : Subscription} (hb : s.tables.subs.get k = some sub)
    {Q : Subscription → Shard ι ε → Prop} (hq : Q sub s) :
    Ends (onTables (Tables.sub k)) s Q :=
  ends_zoom.2 (Tables.ends_sub hb hq)

theorem ends_quietSession {r v : Session} (h : StaysSound held s₀ s)
    (hr : s.tables.sessions.get k = some r) (hv : r.Quiet v) {Q : Unit → Shard ι ε → Prop}
    (hq : ∀ s', StaysSound held s₀ s' → s'.net = s.net →
      s'.tables.sessions.get = Function.update s.tables.sessions.get k (some v) →
      s'.tables.tracks = s.tables.tracks → s'.tables.subs = s.tables.subs → Q () s') :
    Ends (onTables (Tables.setSession k v)) s Q := by
  refine ends_zoom.2
    ((Tables.Quiet.setSession hr hv).mono fun _ t ⟨hquiet, hget, htr, hsub⟩ => ?_)
  exact hq _ (h.step rfl hquiet rfl rfl rfl rfl h.sound.net) rfl hget htr hsub

theorem ends_quietTrack {tr tr' : PublishedTrack} (h : StaysSound held s₀ s)
    (htr : s.tables.tracks.get k = some tr) (hl : tr'.links = tr.links)
    {Q : Unit → Shard ι ε → Prop}
    (hq : ∀ s', StaysSound held s₀ s' → s'.net = s.net → s.tables.Quiet s'.tables →
      Q () s') :
    Ends (onTables (Tables.setTrack k tr')) s Q := by
  refine ends_zoom.2 ((Tables.Quiet.setTrack htr hl).mono fun _ t hquiet => ?_)
  exact hq _ (h.step rfl hquiet rfl rfl rfl rfl h.sound.net) rfl hquiet

theorem ends_quietSub {sub sub' : Subscription} (h : StaysSound held s₀ s)
    (hb : s.tables.subs.get k = some sub) (hl : sub'.links = sub.links)
    {Q : Unit → Shard ι ε → Prop}
    (hq : ∀ s', StaysSound held s₀ s' → s'.net = s.net →
      s'.tables.sessions = s.tables.sessions → Q () s') :
    Ends (onTables (Tables.setSub k sub')) s Q := by
  refine ends_zoom.2 ((Tables.Quiet.setSub hb hl).mono fun _ t ⟨hquiet, hsessions⟩ => ?_)
  exact hq _ (h.step rfl hquiet rfl rfl rfl rfl h.sound.net) rfl hsessions

theorem ends_take (h : StaysSound held s₀ s) {Q : Option Nat → Shard ι ε → Prop}
    (hnone : Q none s)
    (hsome : ∀ b s', StaysSound (b :: held) s₀ s' → s'.tables = s.tables →
      s'.net.tx = s.net.tx → Q (some b) s') : Ends (onNet Net.take) s Q := by
  refine ends_zoom.2 (Net.take_spec h.sound.net hnone fun b net hnet hsame => ?_)
  exact hsome b _ (h.step rfl (.refl _) rfl rfl hsame.rx hsame.capacity hnet) rfl hsame.tx

theorem ends_put (h : StaysSound (b :: held) s₀ s) {Q : Unit → Shard ι ε → Prop}
    (hq : ∀ s', StaysSound held s₀ s' → s'.tables = s.tables → Q () s') :
    Ends (onNet (Net.put b)) s Q := by
  refine ends_zoom.2 (Net.put_spec h.sound.net fun net hnet hsame => ?_)
  exact hq _ (h.step rfl (.refl _) rfl rfl hsame.rx hsame.capacity hnet) rfl

theorem ends_buf {Q : Bytes → Shard ι ε → Prop} (hq : Q (s.net.pool.buf b) s) :
    Ends (onNet (Net.buf b)) s Q :=
  ends_zoom.2 (ends_bind.2 (ends_get.2 (ends_pure.2 hq)))

theorem ends_data {len : Nat} (hlen : len ≤ bufSize) {Q : Bytes → Shard ι ε → Prop}
    (hq : ∀ bytes, Q bytes s) : Ends (onNet (Net.data b len)) s Q :=
  ends_zoom.2 (Net.data_spec hlen hq)

theorem ends_write {bytes : Bytes} (h : StaysSound held s₀ s) {Q : Unit → Shard ι ε → Prop}
    (hq : ∀ s', StaysSound held s₀ s' → s'.tables = s.tables →
      s'.net.tx = s.net.tx → Q () s') :
    Ends (onNet (Net.write b bytes)) s Q := by
  refine ends_zoom.2 (ends_modify.2 ?_)
  exact hq _ (h.step rfl (.refl _) rfl rfl rfl (BufferPool.write_capacity bytes)
    (h.sound.net.write bytes)) rfl rfl

theorem ends_push {len : Nat} {addr : SocketAddr} (h : StaysSound (b :: held) s₀ s)
    (hroom : s.net.tx.length < sendBatch) (hlen : len ≤ bufSize)
    {Q : Unit → Shard ι ε → Prop}
    (hq : ∀ s', StaysSound held s₀ s' → s'.tables = s.tables → Q () s') :
    Ends (onNet (Net.push ⟨b, len, addr⟩)) s Q := by
  refine ends_zoom.2 (Net.push_spec h.sound.net hroom hlen fun net hnet hrx hpool => ?_)
  exact hq _ (h.step rfl (.refl _) rfl rfl hrx (congrArg BufferPool.capacity hpool) hnet) rfl

end Steps

section Wire

variable [DatagramIo ι] [LawfulIo ι]

theorem ends_flush (h : StaysSound held s₀ s) {Q : Unit → Shard ι ε → Prop}
    (hq : ∀ s', StaysSound held s₀ s' → s'.tables = s.tables → s'.net.tx = [] → Q () s') :
    Ends flush s Q := by
  rw [flush, ends_bind, ends_get]
  split_ifs with hempty
  · exact ends_pure.2 (hq s h rfl (isEmpty_iff.1 hempty))
  simp only [ends_bind]
  refine ends_zoom.2 (Net.flush_spec h.sound.net fun r net hnet htx hrx hcap => ?_)
  have h' : StaysSound held s₀ { s with net } := h.step rfl (.refl _) rfl rfl hrx hcap hnet
  refine ends_addTo h' (by simp) fun s₁ h₁ ht₁ hn₁ => ?_
  refine ends_addTo h₁ (by simp) fun s₂ h₂ ht₂ hn₂ => ?_
  refine ends_addTo h₂ (by simp) fun s₃ h₃ ht₃ hn₃ =>
    hq s₃ h₃ (ht₃.trans (ht₂.trans ht₁)) ?_
  rw [hn₃, hn₂, hn₁]
  exact htx

theorem ends_flushIfFull (h : StaysSound held s₀ s) {Q : Unit → Shard ι ε → Prop}
    (hq : ∀ s', StaysSound held s₀ s' → s'.tables = s.tables →
      s'.net.tx.length < sendBatch → Q () s') :
    Ends flushIfFull s Q := by
  rw [flushIfFull, ends_bind, ends_get]
  split_ifs with hfull
  · refine ends_bind.2 (ends_count h (by simp) fun s₁ h₁ ht₁ _ => ?_)
    refine ends_flush h₁ fun s₂ h₂ ht₂ htx => hq s₂ h₂ (ht₂.trans ht₁) ?_
    rw [htx]
    exact Nat.zero_lt_succ _
  · refine ends_pure.2 (hq s h rfl (Nat.lt_of_le_of_ne h.sound.net.tx_le ?_))
    simpa [Net.txIsFull] using hfull

theorem ends_send {len : Nat} {addr : SocketAddr} (h : StaysSound (b :: held) s₀ s)
    (hlen : len ≤ bufSize) {Q : Unit → Shard ι ε → Prop}
    (hq : ∀ s', StaysSound held s₀ s' → s'.tables = s.tables → Q () s') :
    Ends (send b len addr) s Q := by
  refine ends_bind.2 (ends_flushIfFull h fun s₁ h₁ ht₁ hroom => ?_)
  exact ends_push h₁ hroom hlen fun s₂ h₂ ht₂ => hq s₂ h₂ (ht₂.trans ht₁)

end Wire

section Rtcp

variable [DatagramIo ι] [LawfulIo ι] {tr : PublishedTrack} {r : Session} {sub : Subscription}
  {now len : Nat}

omit [DatagramIo ι] [LawfulIo ι] in
theorem protectWritten_spec (outbound : SrtpOutbound) (written : Option (Bytes × Nat))
    (hlen : ∀ p, written = some p → p.1.length = bufSize) :
    (protectWritten outbound written).2.shape = outbound.shape ∧
      ∀ p, (protectWritten outbound written).1 = some p → p.2 ≤ bufSize := by
  cases written with
  | none => simp [protectWritten]
  | some p =>
    refine ⟨SrtpOutbound.shape_protectRtcp .., fun q hq => ?_⟩
    rw [← hlen p rfl]
    exact SrtpOutbound.protectRtcp_le hq

theorem requestKeyframe_spec (h : StaysSound held s₀ s) (htr : s.tables.tracks.get k = some tr)
    (now : Nat) :
    Ends (requestKeyframe k now) s fun _ s' => StaysSound held s₀ s' := by
  refine ends_bind.2 (ends_flushIfFull h fun s₁ h₁ ht₁ hroom => ?_)
  rw [← ht₁] at htr
  obtain ⟨r, hr, -, -⟩ := h₁.sound.tables.linked.session_of_track htr
  refine ends_bind.2 (ends_readTrack htr ?_)
  split_ifs
  · exact ends_bind.2 (ends_count h₁ (by simp) fun s₂ h₂ _ _ => ends_pure.2 h₂)
  cases hssrc : tr.layer.ssrc with
  | none => exact ends_pure.2 h₁
  | some mediaSsrc =>
  refine ends_bind.2 (ends_readSession hr ?_)
  cases hout : r.srtpOut with
  | none => exact ends_pure.2 h₁
  | some outbound =>
  cases haddr : r.addr with
  | none => exact ends_pure.2 h₁
  | some addr =>
  simp only [← haddr]
  refine ends_bind.2 (ends_take h₁ (ends_count h₁ (by simp) fun s₂ h₂ _ _ => h₂)
    fun b s₂ h₂ ht₂ htx₂ => ?_)
  refine ends_bind.2 (ends_buf ?_)
  have hlen := h₂.sound.net.length_buf mem_cons_self
  obtain ⟨hshape, hle⟩ := protectWritten_spec outbound
    (writePli (s₂.net.pool.buf b) r.outSsrcBase mediaSsrc)
    fun p hp => (writePli_length hp).trans hlen
  rw [← ht₂] at htr hr
  refine ends_bind.2
    (ends_quietSession h₂ hr (.outbound hout hshape) fun s₃ h₃ hn₃ _ htr₃ _ => ?_)
  cases hp : (protectWritten outbound
    (writePli (s₂.net.pool.buf b) r.outSsrcBase mediaSsrc)).1 with
  | none =>
    refine ends_bind.2 (ends_count h₃ (by simp) fun s₄ h₄ _ _ => ?_)
    exact ends_put h₄ fun s₅ h₅ _ => h₅
  | some p =>
    obtain ⟨bytes, n⟩ := p
    refine ends_bind.2 (ends_write h₃ fun s₄ h₄ ht₄ htx₄ => ?_)
    have hroom₄ : s₄.net.tx.length < sendBatch := by
      rw [htx₄, hn₃, htx₂]
      exact hroom
    refine ends_bind.2 (ends_push h₄ hroom₄ (hle _ hp) fun s₅ h₅ ht₅ => ?_)
    have htr₅ : s₅.tables.tracks.get k = some tr := by
      rw [ht₅, ht₄, htr₃]
      exact htr
    refine ends_bind.2 (ends_quietTrack h₅ htr₅ (by rfl) fun s₆ h₆ _ _ => ?_)
    exact ends_count h₆ (by simp) fun s₇ h₇ _ _ => h₇

theorem translateSrTo_spec (h : StaysSound held s₀ s) (htr : s.tables.tracks.get k = some tr)
    (sr : SrInfo) {i : Nat} (hi : i < tr.subscribers.length) :
    Ends (translateSrTo k sr i) s fun _ s' => StaysSound held s₀ s' := by
  refine ends_bind.2 (ends_flushIfFull h fun s₁ h₁ ht₁ hroom => ?_)
  rw [← ht₁] at htr
  have hget : tr.subscribers[i]? = some tr.subscribers[i] := getElem?_eq_getElem hi
  obtain ⟨sub, hsub, -⟩ := h₁.sound.tables.linked.sub_of_track htr (getElem_mem hi)
  obtain ⟨r, hr, -⟩ := h₁.sound.tables.linked.session_of_sub hsub
  refine ends_bind.2 (ends_readTrack htr ?_)
  refine ends_bind.2 (ends_expect.2 ⟨_, hget, ?_⟩)
  refine ends_bind.2 (ends_readSub hsub ?_)
  refine ends_bind.2 (ends_readSession hr ?_)
  cases hout : r.srtpOut with
  | none => exact ends_pure.2 h₁
  | some outbound =>
  cases haddr : r.addr with
  | none => exact ends_pure.2 h₁
  | some addr =>
  simp only [← haddr]
  split_ifs
  · exact ends_pure.2 h₁
  refine ends_bind.2 (ends_take h₁ (ends_count h₁ (by simp) fun s₂ h₂ _ _ => h₂)
    fun b s₂ h₂ ht₂ htx₂ => ?_)
  refine ends_bind.2 (ends_buf ?_)
  have hlen := h₂.sound.net.length_buf mem_cons_self
  generalize hw : writeTranslatedSr (s₂.net.pool.buf b) _ _ _ _ _ = written
  obtain ⟨hshape, hle⟩ := protectWritten_spec outbound written
    fun p hp => (writeTranslatedSr_length (hw.trans hp)).trans hlen
  rw [← ht₂] at hr
  refine ends_bind.2
    (ends_quietSession h₂ hr (.outbound hout hshape) fun s₃ h₃ hn₃ _ _ _ => ?_)
  cases hp : (protectWritten outbound written).1 with
  | none =>
    refine ends_bind.2 (ends_count h₃ (by simp) fun s₄ h₄ _ _ => ?_)
    exact ends_put h₄ fun s₅ h₅ _ => h₅
  | some p =>
    obtain ⟨bytes, n⟩ := p
    refine ends_bind.2 (ends_write h₃ fun s₄ h₄ ht₄ htx₄ => ?_)
    refine ends_bind.2 (ends_count h₄ (by simp) fun s₅ h₅ _ hn₅ => ?_)
    have hroom₅ : s₅.net.tx.length < sendBatch := by
      rw [hn₅, htx₄, hn₃, htx₂]
      exact hroom
    exact ends_push h₅ hroom₅ (hle _ hp) fun s₆ h₆ _ => h₆

theorem translateSr_spec (h : StaysSound held s₀ s) (hr : s.tables.sessions.get k = some r)
    (ssrc : UInt32) (sr : SrInfo) :
    Ends (translateSr k ssrc sr) s fun _ s' => StaysSound held s₀ s' := by
  refine ends_bind.2 (ends_readSession hr ?_)
  cases htrack : r.trackOfSsrc ssrc with
  | none => exact ends_pure.2 h
  | some y =>
    obtain ⟨tr, htr, -⟩ := h.sound.tables.linked.track_of_session hr (trackOfSsrc_mem htrack)
    refine ends_bind.2 (ends_readTrack htr ?_)
    refine ends_bind.2 (ends_quietTrack h htr (by rfl) fun s₁ h₁ _ hquiet => ?_)
    obtain ⟨tr₁, htr₁, hsubs₁⟩ := hquiet.track htr
    -- The subscribers stay the same while the reports go out.
    refine (ends_each
      (I := fun rest s' => StaysSound held s₁ s' ∧ ∀ i ∈ rest, i < tr.subscribers.length)
      ?_ ⟨h₁.sound.stays, by simp⟩).mono fun _ s' ⟨h', _⟩ => h₁.trans h'
    rintro i rest s' ⟨h', hlt⟩
    obtain ⟨tr', htr', hsubs'⟩ := h'.keepsOutbox.track htr₁
    refine (translateSrTo_spec h' htr' sr ?_).mono fun _ s'' h'' => ⟨h'', fun j hj => hlt j ?_⟩
    · rw [hsubs', hsubs₁]
      exact hlt i mem_cons_self
    · exact mem_cons_of_mem _ hj

omit [DatagramIo ι] [LawfulIo ι] in
theorem findSub_spec {t : Tables} {l : List Key} (hl : ∀ y ∈ l, ∃ b, t.subs.get y = some b)
    (ssrc : UInt32) {Q : Option Key → Tables → Prop} (hnone : Q none t)
    (hsome : ∀ y ∈ l, Q (some y) t) : Ends (findSub ssrc l) t Q := by
  induction l with
  | nil => exact ends_pure.2 hnone
  | cons y l ih =>
    obtain ⟨b, hb⟩ := hl y mem_cons_self
    refine ends_bind.2 (Tables.ends_sub hb ?_)
    split_ifs
    · exact ends_pure.2 (hsome y mem_cons_self)
    · exact ih (fun z hz => hl z (mem_cons_of_mem _ hz))
        fun z hz => hsome z (mem_cons_of_mem _ hz)

theorem keyframeWanted_spec (h : StaysSound held s₀ s) (hr : s.tables.sessions.get k = some r)
    (now : Nat) (ssrc : UInt32) :
    Ends (keyframeWanted k now ssrc) s fun _ s' => StaysSound held s₀ s' := by
  refine ends_bind.2 (ends_readSession hr ?_)
  have hlive : ∀ y ∈ r.subs, ∃ b, s.tables.subs.get y = some b := fun y hy => by
    obtain ⟨b, hb, -⟩ := h.sound.tables.linked.sub_of_session hr hy
    exact ⟨b, hb⟩
  refine ends_bind.2 (ends_zoom.2 (findSub_spec hlive ssrc (ends_pure.2 h) fun y hy => ?_))
  obtain ⟨b, hb⟩ := hlive y hy
  obtain ⟨tr, htr, -⟩ := h.sound.tables.linked.track_of_sub hb
  refine ends_bind.2 (ends_readSub hb ?_)
  exact requestKeyframe_spec h htr now

omit [DatagramIo ι] [LawfulIo ι] in
theorem ends_eachFor {α : Type} {g : α → Prog (Shard ι ε) Unit} {l : List α}
    (hr : s₀.tables.sessions.get k = some r) (h : StaysSound held s₀ s)
    (hg : ∀ a s' r', StaysSound held s₀ s' → s'.tables.sessions.get k = some r' →
      Ends (g a) s' fun _ s'' => StaysSound held s₀ s'') :
    Ends (each g l) s fun _ s' => StaysSound held s₀ s' := by
  refine ends_each (I := fun _ s' => StaysSound held s₀ s') (fun a rest s' h' => ?_) h
  obtain ⟨r', hr', -⟩ := h'.keepsOutbox.session hr
  exact hg a s' r' h' hr'

theorem handleRtcpCompound_spec (h : StaysSound held s₀ s) (hr : s.tables.sessions.get k = some r)
    (hlen : len ≤ bufSize) (now : Nat) :
    Ends (handleRtcpCompound k b len now) s fun _ s' => StaysSound held s₀ s' := by
  refine ends_bind.2 (ends_data hlen fun bytes => ?_)
  cases Requests.read bytes with
  | none => exact ends_count h (by simp) fun s₁ h₁ _ _ => h₁
  | some requests =>
    refine ends_bind.2 (ends_addTo h (by simp) fun s₁ h₁ ht₁ _ => ?_)
    rw [← ht₁] at hr
    refine ends_bind.2 ((ends_eachFor hr h₁.sound.stays
      fun p s' r' h' hr' => translateSr_spec h' hr' p.1 p.2).mono fun _ s₂ h₂ => ?_)
    exact (ends_eachFor hr h₂ fun ssrc s' r' h' hr' => keyframeWanted_spec h' hr' now ssrc).mono
      fun _ s₃ h₃ => h₁.trans h₃

end Rtcp

section FanOut

variable [DatagramIo ι] [LawfulIo ι] {tr : PublishedTrack} {r : Session} {sub : Subscription}
  {src len now : Nat} {header : Rtp.RtpHeader}

omit [DatagramIo ι] [LawfulIo ι] in
theorem forwardPacket_quiet (sub : Subscription) (outbound : SrtpOutbound) (rng : Rng) (src : Bytes)
    (header : Rtp.RtpHeader) (now : Nat) (buf : Bytes) :
    (forwardPacket sub outbound rng src header now buf).sub.links = sub.links ∧
      (forwardPacket sub outbound rng src header now buf).outbound.shape = outbound.shape := by
  simp only [forwardPacket]
  split
  · exact ⟨rfl, rfl⟩
  · exact ⟨rfl, rfl⟩
  rename_i dst rtpLen advance rng' _
  have hshape := outbound.shape_protectRtp
    (dst ++ buf.drop (bufSize - outbound.cipher.tagLen - 4)) rtpLen
  split
  · rename_i hprot
    rw [hprot] at hshape
    exact ⟨rfl, hshape⟩
  · rename_i hprot
    rw [hprot] at hshape
    refine ⟨?_, hshape⟩
    simp only [Subscription.links, commit_outSsrc]

omit [DatagramIo ι] [LawfulIo ι] in
theorem forward_spec (h : StaysSound held s₀ s) (hroom : s.net.tx.length < sendBatch)
    (hsrc : src ∈ held) (hsub : s.tables.subs.get k = some sub) :
    Ends (forward src len header now k) s fun _ s' => StaysSound held s₀ s' := by
  have hfull : (!s.net.txIsFull) = true := by simpa [Net.txIsFull] using Nat.ne_of_lt hroom
  obtain ⟨r, hr, -⟩ := h.sound.tables.linked.session_of_sub hsub
  refine ends_bind.2 (ends_get.2 (ends_bind.2 (ends_assert.2 ⟨hfull, ?_⟩)))
  refine ends_bind.2 (ends_readSub hsub ?_)
  refine ends_bind.2 (ends_readSession hr ?_)
  cases hout : r.srtpOut with
  | none => exact ends_pure.2 h
  | some outbound =>
  cases haddr : r.addr with
  | none => exact ends_pure.2 h
  | some addr =>
  simp only [← haddr]
  refine ends_bind.2 (ends_take h (ends_count h (by simp) fun s₁ h₁ _ _ => h₁)
    fun b s₁ h₁ ht₁ htx₁ => ?_)
  have hne : src ≠ b := by
    rintro rfl
    exact (nodup_cons.1 h₁.sound.net.nodup).1 hsrc
  refine ends_bind.2 (ends_assert.2 ⟨by simpa using hne, ?_⟩)
  refine ends_bind.2 (ends_get.2 ?_)
  have hlen := h₁.sound.net.length_buf mem_cons_self
  obtain ⟨hlinks, hshape⟩ :=
    forwardPacket_quiet sub outbound s₁.rng ((s₁.net.pool.buf src).take len)
    header now (s₁.net.pool.buf b)
  have hle : ∀ out n rebased,
      (forwardPacket sub outbound s₁.rng ((s₁.net.pool.buf src).take len) header
      now (s₁.net.pool.buf b)).result = .ok (out, n, rebased) → n ≤ bufSize :=
    fun _ _ _ => forwardPacket_le hlen
  generalize forwardPacket sub outbound s₁.rng ((s₁.net.pool.buf src).take len) header now
    (s₁.net.pool.buf b) = done at hlinks hshape hle
  refine ends_bind.2 (ends_set.2 ?_)
  have h₂ : StaysSound (b :: held) s₀ { s₁ with rng := done.rng } :=
    h₁.step rfl (.refl _) rfl rfl rfl rfl h₁.sound.net
  rw [← ht₁] at hsub hr
  refine ends_bind.2 (ends_quietSub h₂ (by exact hsub) hlinks fun s₃ h₃ hn₃ hsess₃ => ?_)
  have hr₃ : s₃.tables.sessions.get sub.session = some r := by
    rw [hsess₃]
    exact hr
  refine ends_bind.2
    (ends_quietSession h₃ hr₃ (.outbound hout hshape) fun s₄ h₄ hn₄ _ _ _ => ?_)
  cases hres : done.result with
  | error drop =>
    refine ends_bind.2
      (ends_count h₄ ?_ fun s₅ h₅ _ _ => ends_put h₅ fun s₆ h₆ _ => h₆)
    cases drop <;> simp
  | ok out =>
    obtain ⟨bytes, n, rebased⟩ := out
    refine ends_bind.2 (ends_write h₄ fun s₅ h₅ _ htx₅ => ?_)
    refine ends_bind.2 (ends_addTo h₅ (by simp) fun s₆ h₆ _ hn₆ => ?_)
    have hroom₆ : s₆.net.tx.length < sendBatch := by
      rw [hn₆, htx₅, hn₄, hn₃]
      exact htx₁ ▸ hroom
    exact ends_push h₆ hroom₆ (hle bytes n rebased hres) fun s₇ h₇ _ => h₇

theorem fanOut_spec (h : StaysSound held s₀ s) (hsrc : src ∈ held)
    (htr : s.tables.tracks.get k = some tr) :
    Ends (fanOut k src len header now) s fun _ s' => StaysSound held s₀ s' := by
  refine ends_bind.2 (ends_readTrack htr ?_)
  refine (ends_each
    (I := fun rest s' => StaysSound held s s' ∧ ∀ i ∈ rest, i < tr.subscribers.length)
    ?_ ⟨h.sound.stays, by simp⟩).mono fun _ s' ⟨h', _⟩ => h.trans h'
  rintro i rest s' ⟨h', hlt⟩
  refine ends_bind.2 (ends_flushIfFull h' fun s₁ h₁ _ hroom => ?_)
  obtain ⟨tr', htr', hsubs'⟩ := h₁.keepsOutbox.track htr
  have hi : i < tr'.subscribers.length := hsubs' ▸ hlt i mem_cons_self
  obtain ⟨sub, hsub, -⟩ := h₁.sound.tables.linked.sub_of_track htr' (getElem_mem hi)
  refine ends_bind.2 (ends_readTrack htr' ?_)
  refine ends_bind.2 (ends_expect.2 ⟨_, getElem?_eq_getElem hi, ?_⟩)
  refine (forward_spec h₁ hroom hsrc hsub).mono fun _ s'' h'' => ⟨h'', fun j hj => hlt j ?_⟩
  exact mem_cons_of_mem _ hj

end FanOut

section Inbound

variable {r : Session} {d : Datagram} {now len : Nat}

theorem unprotectWith_spec (rtcp : Bool) (i : SrtpInbound) (buf : Bytes) (len nowS : Nat) :
    (∀ ssrcs, i.Mirrors ssrcs → (unprotectWith rtcp i buf len nowS).2.Mirrors ssrcs) ∧
      ∀ p, (unprotectWith rtcp i buf len nowS).1 = some p → p.2 ≤ len := by
  cases rtcp with
  | true => exact ⟨fun _ hm => hm.unprotectRtcp .., fun p hp => SrtpInbound.unprotectRtcp_le hp⟩
  | false => exact ⟨fun _ hm => hm.unprotectRtp .., fun p hp => SrtpInbound.unprotectRtp_le hp⟩

theorem unprotect_spec (h : StaysSound held s₀ s) (hr : s.tables.sessions.get k = some r)
    (hin : r.srtpIn.isSome) (hlen : d.len ≤ bufSize) (rtcp : Bool) :
    Ends (unprotect k d now rtcp) s fun o s' =>
      StaysSound held s₀ s' ∧ ∀ len, o = some len → len ≤ bufSize := by
  obtain ⟨i, hi⟩ := isSome_iff_exists.1 hin
  refine ends_bind.2 (ends_get.2 (ends_bind.2 (ends_readSession hr ?_)))
  refine ends_bind.2 (ends_expect.2 ⟨i, hi, ?_⟩)
  obtain ⟨hmirrors, hle⟩ := unprotectWith_spec rtcp i (s.net.pool.buf d.buf) d.len (s.nowS now)
  generalize unprotectWith rtcp i (s.net.pool.buf d.buf) d.len (s.nowS now) = opened at hmirrors hle
  refine ends_bind.2 (ends_quietSession h hr (.inbound hi hmirrors) fun s₁ h₁ _ _ _ _ => ?_)
  cases hres : opened.1 with
  | none =>
    exact ends_bind.2
      (ends_count h₁ (by simp) fun s₂ h₂ _ _ => ends_pure.2 ⟨h₂, by simp⟩)
  | some p =>
    obtain ⟨bytes, n⟩ := p
    refine ends_bind.2 (ends_write h₁ fun s₂ h₂ _ _ => ends_pure.2 ⟨h₂, ?_⟩)
    rintro _ ⟨⟩
    exact (hle _ hres).trans hlen

theorem srtpSession_spec (h : StaysSound held s₀ s) :
    Ends (srtpSession d) s fun o s' => StaysSound held s₀ s' ∧
      ∀ k, o = some k → ∃ r, s'.tables.sessions.get k = some r ∧ r.srtpIn.isSome := by
  refine ends_bind.2 (ends_get.2 ?_)
  cases haddr : s.tables.byAddr.lookup d.addr with
  | none =>
    exact ends_bind.2 (ends_count h (by simp) fun s₁ h₁ _ _ => ends_pure.2 ⟨h₁, by simp⟩)
  | some k =>
    obtain ⟨p, hp, -⟩ := (h.sound.tables.linked.addrs d.addr k).1 haddr
    obtain ⟨r, hr, -⟩ := map_eq_some_iff.1 hp
    refine ends_bind.2 (ends_readSession hr ?_)
    split_ifs with hnone
    · exact ends_bind.2
        (ends_count h (by simp) fun s₁ h₁ _ _ => ends_pure.2 ⟨h₁, by simp⟩)
    · refine ends_pure.2 ⟨h, ?_⟩
      rintro _ ⟨⟩
      exact ⟨r, hr, by simpa [isSome_iff_ne_none] using hnone⟩

end Inbound
end Shard
end NexusSfu.Dataplane
