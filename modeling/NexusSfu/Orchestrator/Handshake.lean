import NexusSfu.Orchestrator.Dtls

namespace NexusSfu.Orchestrator

open Base Prog List

namespace DtlsHandshake

variable {E : Type} [DtlsEngine E] {α : Type} {h h' : DtlsHandshake E} {role : DtlsRole}
  {fingerprint : Fingerprint} {m : Method E α}

def Verified (h : DtlsHandshake E) : Prop :=
  ∃ e fp, h.engine = some e ∧ DtlsEngine.isEstablished e = true ∧
    DtlsEngine.peerFingerprint e = some fp ∧ h.remoteFingerprint = some fp

structure Coherent (h : DtlsHandshake E) : Prop where
  starts_le : h.starts ≤ 1
  unstarted : h.state = .running → h.engine = none → h.starts = 0
  complete : h.state = .complete → h.engine ≠ none
  nonzero : ∀ fp, h.remoteFingerprint = some fp → fp.toList.all (· == 0) = false

structure Keeps (h h' : DtlsHandshake E) : Prop where
  role : ∀ x, h.role = some x → h'.role = some x
  pinned : ∀ fp, h.remoteFingerprint = some fp → h'.remoteFingerprint = some fp

omit [DtlsEngine E] in
theorem Keeps.refl (h : DtlsHandshake E) : Keeps h h := ⟨fun _ hx => hx, fun _ hx => hx⟩

omit [DtlsEngine E] in
theorem Keeps.trans {h₁ h₂ h₃ : DtlsHandshake E} (a : Keeps h₁ h₂) (b : Keeps h₂ h₃) :
    Keeps h₁ h₃ :=
  ⟨fun x hx => b.role x (a.role x hx), fun fp hx => b.pinned fp (a.pinned fp hx)⟩

omit [DtlsEngine E] in
@[simp] theorem ends_ofExcept {r : Except HandshakeError α}
    {P : Except HandshakeError α → DtlsHandshake E → Prop} :
    Ends (ofExcept r).run h P ↔ P r h :=
  ends_mk

theorem startEngine_spec (role : DtlsRole) (hn : h.engine = none) :
    Ends (startEngine role).run h fun r h' => ∃ engine,
      h' = { h with engine, starts := h.starts + 1 } ∧ ∀ d, r = .ok d → engine ≠ none := by
  simp only [startEngine, ends_try_bind, ends_try_get, ends_lift, ends_assert, hn,
    Option.isNone_none, ends_try_modify, true_and]
  split
  · exact ends_throw.2 ⟨none, rfl, by simp⟩
  · simp only [ends_try_bind, ends_try_modify, ends_ofExcept]
    exact ⟨_, rfl, by simp⟩

theorem checkCompletion_spec (h : DtlsHandshake E) : Ends checkCompletion.run h fun r h' =>
      (r = .ok true ∧ h' = { h with state := .complete } ∧ h.state = .running ∧
        h.Verified) ∨
      (r ≠ .ok true ∧ h' = h) := by
  simp only [checkCompletion, ends_try_bind, ends_try_get]
  split
  · simp
  · next e he =>
    split_ifs with hs
    · simp
    · push Not at hs
      split
      · simp
      · next fp hfp =>
        split_ifs with hp
        · simp
        · rw [ends_try_bind, ends_try_set, ends_try_pure]
          push Not at hp
          exact .inl ⟨rfl, rfl, hs.1, e, fp, he, by simpa using hs.2, hp, hfp⟩

structure Works (h : DtlsHandshake E) (remote : Option Fingerprint)
    (r : Except HandshakeError Progress) (h' : DtlsHandshake E) : Prop where
  keeps : Keeps h h'
  remote : h'.remoteFingerprint = remote
  starts_le : h'.starts ≤ 1
  nonzero : ∀ fp, h'.remoteFingerprint = some fp → fp.toList.all (· == 0) = false
  ok : ∀ p, r = .ok p → Coherent h' ∧
    (p.completed = true ∧ h.state = .running ∧ h'.state = .complete ∧ Verified h' ∨
      p.completed = false ∧ h'.state = h.state)

theorem Works.error {e : HandshakeError} {remote : Option Fingerprint} (k : Keeps h h')
    (hr : h'.remoteFingerprint = remote) (starts : h'.starts ≤ 1)
    (nonzero : ∀ fp, h'.remoteFingerprint = some fp → fp.toList.all (· == 0) = false) :
    Works h remote (.error e) h' :=
  ⟨k, hr, starts, nonzero, nofun⟩

theorem report_spec (k : Keeps h h') (c : Coherent h') (hs : h'.state = h.state)
    (datagrams : List Bytes) :
    Ends (do return { datagrams, completed := ← checkCompletion } : Method E Progress).run h'
      (Works h h'.remoteFingerprint) := by
  rw [ends_try_bind]
  refine (checkCompletion_spec h').mono fun r h'' hr => ?_
  rcases hr with ⟨rfl, rfl, hrun, hv⟩ | ⟨hr, rfl⟩
  · refine ends_try_pure.2 ⟨k.trans ⟨fun _ hx => hx, fun _ hx => hx⟩, rfl, c.starts_le,
      c.nonzero, ?_⟩
    rintro p ⟨⟩
    obtain ⟨e, fp, he, hv⟩ := hv
    refine ⟨⟨c.starts_le, nofun, fun _ => ?_, c.nonzero⟩,
      .inl ⟨rfl, hs ▸ hrun, rfl, e, fp, he, hv⟩⟩
    simp [he]
  · cases r with
    | error e => exact .error k rfl c.starts_le c.nonzero
    | ok b =>
      refine ends_try_pure.2 ⟨k, rfl, c.starts_le, c.nonzero, ?_⟩
      rintro p ⟨⟩
      exact ⟨c, .inr ⟨by simpa using hr, hs⟩⟩

theorem feedEngine_spec {e : E} (k : Keeps h h') (c : Coherent h') (hs : h'.state = h.state)
    (he : h'.engine = some e) (datagram : Bytes) :
    Ends (feedEngine datagram).run h' (Works h h'.remoteFingerprint) := by
  have k' : ∀ e, Keeps h { h' with engine := some e } := fun e =>
    k.trans ⟨fun _ hx => hx, fun _ hx => hx⟩
  simp only [feedEngine, ends_try_bind, ends_try_get, ends_lift, ends_expect, he,
    Option.some.injEq, exists_eq_left', ends_try_modify]
  split
  · exact ends_throw.2 (.error (k' _) rfl c.starts_le c.nonzero)
  · rw [ends_try_bind, ends_ofExcept]
    split
    · exact .error (k' _) rfl c.starts_le c.nonzero
    · exact report_spec (k' _) ⟨c.starts_le, by simp, by simp, c.nonzero⟩ hs _

omit [DtlsEngine E] in
theorem Coherent.started {e : E} (c : Coherent h) (hs : h.state = .running) (hn : h.engine = none) :
    Coherent { h with engine := some e, starts := h.starts + 1 } := by
  have := c.unstarted hs hn
  exact ⟨by simp [this], fun _ => nofun, fun _ => nofun, c.nonzero⟩

theorem starting_spec (k : Keeps h h') (c : Coherent h') (hs : h'.state = h.state)
    (hrun : h'.state = .running) (hn : h'.engine = none) {f : List Bytes → Method E Progress}
    (hf : ∀ d e h'', Keeps h h'' → Coherent h'' → h''.state = h.state →
      h''.engine = some e → Ends (f d).run h'' (Works h h''.remoteFingerprint)) :
    Ends (startEngine role >>= f).run h' (Works h h'.remoteFingerprint) := by
  rw [ends_try_bind]
  refine (startEngine_spec role hn).mono fun r h'' hr => ?_
  obtain ⟨engine, rfl, hr⟩ := hr
  cases r with
  | error e => exact .error ⟨k.role, k.pinned⟩ rfl (by simp [c.unstarted hrun hn]) c.nonzero
  | ok d =>
    obtain ⟨e, rfl⟩ := Option.ne_none_iff_exists'.1 (hr d rfl)
    exact hf d e _ ⟨k.role, k.pinned⟩ (c.started hrun hn) hs rfl

theorem feed_spec (c : Coherent h) (hf : h.state ≠ .failed) (hfr : h.state ≠ .freed)
    (datagram : Bytes) : Ends (feed datagram).run h (Works h h.remoteFingerprint) := by
  simp only [feed, ends_try_bind, ends_try_get]
  by_cases he : h.engine = none
  · have hrun : h.state = .running := by
      cases hs : h.state with
      | running => rfl
      | complete => exact absurd he (c.complete hs)
      | failed => exact absurd hs hf
      | freed => exact absurd hs hfr
    rw [if_pos (by simp [he])]
    split_ifs with hc
    · refine ends_try_pure.2 ⟨.refl h, rfl, c.starts_le, c.nonzero, ?_⟩
      rintro p ⟨⟩
      exact ⟨c, .inr ⟨rfl, rfl⟩⟩
    · push Not at hc
      have k : Keeps h { h with role := some .server } := by
        refine ⟨fun x hx => ?_, fun _ hx => hx⟩
        cases x with
        | client => exact absurd hx hc.1
        | server => rfl
      rw [ends_try_bind, ends_try_set]
      refine starting_spec k ⟨c.starts_le, c.unstarted, c.complete, c.nonzero⟩ rfl hrun he ?_
      exact fun d e h'' k c hs he => feedEngine_spec k c hs he datagram
  · rw [if_neg (by simpa using he)]
    obtain ⟨e, he⟩ := Option.ne_none_iff_exists'.1 he
    exact feedEngine_spec (.refl h) c rfl he datagram

theorem resolve_spec (k : Keeps h h') (c : Coherent h') (hs : h'.state = h.state) :
    Ends (do return { datagrams := ← startOnAnswer role, completed := ← checkCompletion } :
      Method E Progress).run h' (Works h h'.remoteFingerprint) := by
  rw [startOnAnswer, bind_assoc, ends_try_bind, ends_try_get]
  dsimp only
  split_ifs with hn hr ha
  · simp only [bind_assoc, pure_bind]
    refine starting_spec k c hs hn.1 (by simpa using hn.2) ?_
    exact fun d e h'' k c hs _ => report_spec k c hs []
  · refine starting_spec k c hs hn.1 (by simpa using hn.2) ?_
    exact fun d e h'' k c hs _ => report_spec k c hs d
  · exact report_spec k c hs []
  · exact report_spec k c hs []

omit [DtlsEngine E] in
theorem pinFingerprint_spec (h : DtlsHandshake E) (fingerprint : Fingerprint) :
    Ends (pinFingerprint fingerprint).run h fun r h' =>
      (∃ e, r = .error e) ∧ h' = h ∨
      r = .ok () ∧ Keeps h h' ∧ h' = { h with remoteFingerprint := some fingerprint } := by
  simp only [pinFingerprint, ends_try_bind, ends_try_get]
  split_ifs with hp
  · exact ends_throw.2 (.inl ⟨⟨_, rfl⟩, rfl⟩)
  · refine ends_try_set.2 (.inr ⟨rfl, ⟨fun _ hx => hx, fun fp hfp => ?_⟩, rfl⟩)
    simp only [hfp, Option.any_some, ne_eq, decide_not, Bool.not_eq_eq_eq_not, Bool.not_true,
      decide_eq_false_iff_not, not_not] at hp
    rw [hp]

omit [DtlsEngine E] in
theorem fixRole_spec (h : DtlsHandshake E) (role : DtlsRole) : Ends (fixRole role).run h fun r h' =>
      (∃ e, r = .error e) ∧ h' = h ∨ r = .ok () ∧ Keeps h h' ∧
        h' = { h with role := some role } := by
  simp only [fixRole, ends_try_bind, ends_try_get]
  split
  · next fixed hfix =>
    split_ifs with hne
    · exact ends_throw.2 (.inl ⟨⟨_, rfl⟩, rfl⟩)
    · push Not at hne
      refine ends_try_pure.2 (.inr ⟨rfl, .refl h, ?_⟩)
      rw [← hne, ← hfix]
  · next hnone =>
    refine ends_try_set.2 (.inr ⟨rfl, ⟨fun x hx => ?_, fun _ hx => hx⟩, rfl⟩)
    rw [hnone] at hx
    cases hx

theorem Works.of_keeps {h₀ : DtlsHandshake E} {remote : Option Fingerprint}
    {r : Except HandshakeError Progress} (k : Keeps h₀ h) (hs : h.state = h₀.state)
    (w : Works h remote r h') : Works h₀ remote r h' :=
  ⟨k.trans w.keeps, w.remote, w.starts_le, w.nonzero, fun p hp => hs ▸ w.ok p hp⟩

theorem applyAnswer_spec (c : Coherent h) :
    Ends (applyAnswer role fingerprint).run h fun r h' => ∃ remote, Works h remote r h' ∧
      (remote = h.remoteFingerprint ∨ remote = some fingerprint) ∧
      ∀ p, r = .ok p → h'.remoteFingerprint = some fingerprint ∧ h'.role = some role := by
  rw [applyAnswer]
  split_ifs with hz
  · exact ends_throw.2 ⟨_, .error (.refl h) rfl c.starts_le c.nonzero, .inl rfl, nofun⟩
  have hnz : ∀ fp, some fingerprint = some fp → fp.toList.all (· == 0) = false := by
    rintro _ ⟨⟩
    simpa using hz
  rw [ends_try_bind]
  refine (pinFingerprint_spec h fingerprint).mono fun r h₁ hr => ?_
  obtain ⟨⟨e, rfl⟩, rfl⟩ | ⟨rfl, k₁, rfl⟩ := hr
  · exact ⟨_, .error (.refl _) rfl c.starts_le c.nonzero, .inl rfl, nofun⟩
  dsimp only
  rw [ends_try_bind]
  refine (fixRole_spec _ role).mono fun r h₂ hr => ?_
  obtain ⟨⟨e, rfl⟩, rfl⟩ | ⟨rfl, k₂, rfl⟩ := hr
  · exact ⟨_, .error k₁ rfl c.starts_le hnz, .inr rfl, nofun⟩
  have c₂ : Coherent { h with remoteFingerprint := some fingerprint, role := some role } :=
    ⟨c.starts_le, c.unstarted, c.complete, hnz⟩
  refine (resolve_spec (.refl _) c₂ rfl).mono fun r h' w => ?_
  have hfp := w.keeps.pinned fingerprint rfl
  exact ⟨_, w.of_keeps (k₁.trans k₂) rfl, .inr rfl,
    fun _ _ => ⟨hfp, w.keeps.role role rfl⟩⟩

end DtlsHandshake

open DtlsHandshake

inductive Call
  | onAnswer (role : DtlsRole) (fingerprint : Fingerprint)
  | onAddressSelected
  | process (datagram : Bytes)
  | handleTimeout
  | srtpInstall
  | freeSsl
  deriving DecidableEq

inductive Output
  | progress (p : Progress)
  | datagrams (ds : List Bytes)
  | keys (k : MasterKeys)
  | freed (b : Bool)
  deriving DecidableEq

abbrev Reply := Except HandshakeError Output

def Reply.completed : Reply → Bool
  | .ok (.progress p) => p.completed
  | _ => false

def HandshakeError.Harmless (c : Call) : HandshakeError → Prop
  | .invalidDatagram _ => True
  | .keys _ => c = .srtpInstall
  | _ => False

section

variable {E : Type} [DtlsEngine E] {h h' : DtlsHandshake E} {c : Call} {r : Reply}

def call : Call → Prog (DtlsHandshake E) Reply
  | .onAnswer role fingerprint => (Output.progress <$> onAnswer role fingerprint).run
  | .onAddressSelected => (Output.progress <$> onAddressSelected).run
  | .process datagram => (Output.progress <$> DtlsHandshake.process datagram).run
  | .handleTimeout => (Output.datagrams <$> DtlsHandshake.handleTimeout).run
  | .srtpInstall => (Output.keys <$> DtlsHandshake.srtpInstall).run
  | .freeSsl => (Output.freed <$> DtlsHandshake.freeSsl).run

inductive Moves (h : DtlsHandshake E) (r : Reply) (h' : DtlsHandshake E) : Prop
  | stay (state : h'.state = h.state) (reply : r.completed = false)
  | fail (state : h'.state = .failed) (reply : r.completed = false)
  | finish (before : h.state = .running) (after : h'.state = .complete) (verified : h'.Verified)
    (reply : r.completed = true)
  | free (before : h.state = .complete) (after : h'.state = .freed) (reply : r.completed = false)

structure Advances (c : Call) (h : DtlsHandshake E) (r : Reply) (h' : DtlsHandshake E) : Prop where
  keeps : Keeps h h'
  coherent : Coherent h'
  moves : Moves h r h'
  error : ∀ e, r = .error e → h'.state = .failed ∨ e.Harmless c
  answered : ∀ role fp, c = .onAnswer role fp → h'.state ≠ .failed →
    h'.remoteFingerprint = some fp ∧ h'.role = some role
  signaled : ∀ fp, h'.remoteFingerprint = some fp →
    h.remoteFingerprint = some fp ∨ ∃ role, c = .onAnswer role fp
  installed : ∀ k, r = .ok (.keys k) → h.state = .complete

theorem Advances.refused (hc : Coherent h) (hf : h.state = .failed) :
    Advances c h (.error .failed) h where
  keeps := .refl h
  coherent := hc
  moves := .stay rfl rfl
  error _ _ := .inl hf
  answered _ _ _ hn := absurd hf hn
  signaled _ hfp := .inl hfp
  installed _ hk := nomatch hk

theorem ends_checked {α : Type} {m : Method E α} {f : α → Output} (hc : Coherent h)
    (hm : h.state ≠ .failed → Ends m.run h fun r h' => Advances c h (r.map f) h') :
    Ends (f <$> (checkUsable >>= fun _ => m)).run h (Advances c h) := by
  rw [ends_try_map, ends_try_bind, checkUsable, ends_try_bind, ends_try_get]
  dsimp only
  split_ifs with hf
  · exact ends_throw.2 (.refused hc hf)
  · exact ends_try_pure.2 (hm hf)

omit [DtlsEngine E] in
theorem ends_failOnError {α : Type} {m : Method E α}
    {P : Except HandshakeError α → DtlsHandshake E → Prop} :
    Ends (failOnError m).run h P ↔ Ends m.run h fun r h' => match r with
      | .error e => P (.error e) { h' with state := .failed, engine := none }
      | .ok a => P (.ok a) h' := by
  rw [failOnError, ends_try_bind, ends_lift]
  constructor
  · rintro ⟨r, h', hm, hp⟩
    refine ⟨r, h', hm, ?_⟩
    cases r with
    | error e => simpa [ends_try_bind] using hp
    | ok a => simpa using hp
  · rintro ⟨r, h', hm, hp⟩
    refine ⟨r, h', hm, ?_⟩
    cases r with
    | error e => simpa [ends_try_bind] using hp
    | ok a => simpa using hp

theorem Advances.fail {e : HandshakeError} (k : Keeps h h') (starts : h'.starts ≤ 1)
    (nonzero : ∀ fp, h'.remoteFingerprint = some fp → fp.toList.all (· == 0) = false)
    (signaled : ∀ fp, h'.remoteFingerprint = some fp →
      h.remoteFingerprint = some fp ∨ ∃ role, c = .onAnswer role fp) :
    Advances c h (.error e) { h' with state := .failed, engine := none } where
  keeps := ⟨k.role, k.pinned⟩
  coherent := ⟨starts, nofun, nofun, nonzero⟩
  moves := .fail rfl rfl
  error _ _ := .inl rfl
  answered _ _ _ hn := absurd rfl hn
  signaled := signaled
  installed := nofun

theorem ends_progress {m : Method E Progress} {Q : Option Fingerprint → Prop}
    (hm : Ends m.run h fun r h' => ∃ remote, Works h remote r h' ∧ Q remote ∧
      ∀ p, r = .ok p → ∀ role fp, c = .onAnswer role fp →
      h'.remoteFingerprint = some fp ∧ h'.role = some role)
    (signaled : ∀ fp, Q (some fp) → h.remoteFingerprint = some fp ∨ ∃ role,
      c = .onAnswer role fp) :
    Ends (failOnError m).run h fun r h' => Advances c h (r.map .progress) h' := by
  refine ends_failOnError.2 (hm.mono fun r h' hr => ?_)
  obtain ⟨remote, w, hq, answered⟩ := hr
  have signaled : ∀ fp, h'.remoteFingerprint = some fp →
      h.remoteFingerprint = some fp ∨ ∃ role, c = .onAnswer role fp := by
    intro fp hfp
    rw [w.remote] at hfp
    exact signaled fp (hfp ▸ hq)
  cases r with
  | error e => exact .fail w.keeps w.starts_le w.nonzero signaled
  | ok p =>
    obtain ⟨hc, hp⟩ := w.ok p rfl
    refine ⟨w.keeps, hc, ?_, nofun, fun role fp h _ => answered p rfl role fp h,
      signaled, nofun⟩
    obtain ⟨hp, hs, hs', hv⟩ | ⟨hp, hs⟩ := hp
    · exact .finish hs hs' hv hp
    · exact .stay hs hp

theorem onAnswer_spec (hc : Coherent h) (role : DtlsRole) (fingerprint : Fingerprint) :
    Ends (call (.onAnswer role fingerprint)) h (Advances (.onAnswer role fingerprint) h) := by
  refine ends_checked hc fun _ => ends_progress
    ((applyAnswer_spec hc).mono fun r h' ⟨remote, w, hq, hok⟩ => ⟨remote, w, hq, ?_⟩) ?_
  · rintro p hp _ _ ⟨⟩
    exact hok p hp
  · rintro fp (hfp | hfp)
    · exact .inl hfp.symm
    · cases hfp
      exact .inr ⟨role, rfl⟩

theorem Advances.idle (hc : Coherent h') (hrole : h'.role = h.role)
    (hremote : h'.remoteFingerprint = h.remoteFingerprint) (hs : h'.state = h.state)
    (hcall : ∀ role fp, c ≠ .onAnswer role fp) (hr : r.completed = false)
    (herr : ∀ e, r = .error e → e.Harmless c)
    (hk : ∀ k, r = .ok (.keys k) → h.state = .complete) :
    Advances c h r h' where
  keeps := ⟨fun _ hx => hrole ▸ hx, fun _ hx => hremote ▸ hx⟩
  coherent := hc
  moves := .stay hs hr
  error e he := .inr (herr e he)
  answered _ _ h := absurd h (hcall _ _)
  signaled _ hfp := .inl (hremote ▸ hfp)
  installed := hk

theorem process_spec (hc : Coherent h) (datagram : Bytes) :
    Ends (call (.process datagram)) h (Advances (.process datagram) h) := by
  rw [call, DtlsHandshake.process]
  split_ifs with hd
  · refine ends_try_map.2 (ends_throw.2 ?_)
    exact .idle hc rfl rfl rfl nofun rfl (by rintro _ ⟨⟩; exact trivial) nofun
  · refine ends_checked hc fun hf => ?_
    rw [ends_try_bind, ends_try_get]
    dsimp only
    split_ifs with hfr
    · exact ends_try_pure.2 (.idle hc rfl rfl rfl nofun rfl nofun nofun)
    · refine ends_progress ((feed_spec hc hf hfr datagram).mono fun r h' w => ?_)
        (fun fp hfp => ?_)
        (Q := (· = h.remoteFingerprint))
      · exact ⟨_, w, rfl, nofun⟩
      · exact .inl hfp.symm

theorem onAddressSelected_spec (hc : Coherent h) :
    Ends (call .onAddressSelected) h (Advances .onAddressSelected h) := by
  rw [call, onAddressSelected]
  refine ends_checked hc fun hf => ?_
  simp only [ends_try_bind, ends_try_modify, ends_try_get]
  have hc' : Coherent { h with addressSelected := true } :=
    ⟨hc.starts_le, hc.unstarted, hc.complete, hc.nonzero⟩
  split_ifs with hs
  · obtain ⟨hrun, hn, -⟩ := hs
    have hn : h.engine = none := by simpa using hn
    rw [ends_try_bind, ends_failOnError]
    refine (startEngine_spec .client (h := { h with addressSelected := true }) hn).mono
      fun r h' hr => ?_
    obtain ⟨engine, rfl, hr⟩ := hr
    have hle : h.starts + 1 ≤ 1 := by simp [hc.unstarted hrun hn]
    cases r with
    | error e =>
      exact .fail ⟨fun _ hx => hx, fun _ hx => hx⟩ hle hc.nonzero fun _ hfp => .inl hfp
    | ok d =>
      obtain ⟨e, rfl⟩ := Option.ne_none_iff_exists'.1 (hr d rfl)
      exact ends_try_pure.2
        (.idle (hc'.started hrun hn) rfl rfl rfl (by simp) rfl (by rintro _ ⟨⟩)
          (by rintro _ ⟨⟩))
  · exact ends_try_pure.2
      (.idle hc' rfl rfl rfl (by simp) rfl (by rintro _ ⟨⟩) (by rintro _ ⟨⟩))

theorem handleTimeout_spec (hc : Coherent h) :
    Ends (call .handleTimeout) h (Advances .handleTimeout h) := by
  rw [call, DtlsHandshake.handleTimeout]
  refine ends_checked hc fun hf => ?_
  rw [ends_try_bind, ends_try_get]
  dsimp only
  split
  · exact ends_try_pure.2 (.idle hc rfl rfl rfl nofun rfl nofun nofun)
  · split_ifs with hs
    · exact ends_try_pure.2 (.idle hc rfl rfl rfl nofun rfl nofun nofun)
    · rw [ends_try_bind, ends_try_set]
      dsimp only
      rw [ends_failOnError, ends_ofExcept]
      split
      · exact .fail ⟨fun _ hx => hx, fun _ hx => hx⟩ hc.starts_le hc.nonzero
          fun _ hfp => .inl hfp
      · refine .idle ⟨hc.starts_le, fun _ => nofun, fun _ => nofun, hc.nonzero⟩ rfl rfl
          rfl ?_ rfl ?_ ?_
        · exact nofun
        · exact nofun
        · exact nofun

theorem freeSsl_spec (hc : Coherent h) : Ends (call .freeSsl) h (Advances .freeSsl h) := by
  rw [call, DtlsHandshake.freeSsl, ends_try_map, ends_try_bind, ends_try_get]
  dsimp only
  split_ifs with hs
  · exact ends_try_pure.2 (.idle hc rfl rfl rfl nofun rfl nofun nofun)
  · push Not at hs
    rw [ends_try_bind, ends_try_set]
    exact ends_try_pure.2
      { keeps := ⟨fun _ hx => hx, fun _ hx => hx⟩
        coherent := ⟨hc.starts_le, nofun, nofun, hc.nonzero⟩
        moves := .free hs rfl rfl
        error := nofun
        answered := nofun
        signaled := fun _ hfp => .inl hfp
        installed := nofun }

omit [DtlsEngine E] in
theorem directionKey_error {keys : SrtpKeyMaterial} {key salt : Bytes} {e : HandshakeError}
    (he : directionKey keys key salt = .error e) : e.Harmless .srtpInstall := by
  unfold directionKey at he
  split_ifs at he <;> cases he <;> rfl

theorem installKeys_ok {k : MasterKeys} (hk : installKeys h = .ok k) : h.state = .complete := by
  by_contra hs
  rw [installKeys, if_pos hs] at hk
  cases hk

theorem installKeys_error {e : HandshakeError} (he : installKeys h = .error e) :
    e.Harmless .srtpInstall := by
  unfold installKeys at he
  split_ifs at he with hs
  · cases he
    rfl
  split at he
  case h_2 => cases he; rfl
  split at he
  case h_2 => cases he; rfl
  next keys _ =>
  split at he
  case h_2 => cases he; rfl
  cases hc : directionKey keys keys.clientKey keys.clientSalt with
  | error e' =>
    rw [hc] at he
    cases he
    exact directionKey_error hc
  | ok client =>
    cases hs : directionKey keys keys.serverKey keys.serverSalt with
    | error e' =>
      rw [hc, hs] at he
      cases he
      exact directionKey_error hs
    | ok server =>
      rw [hc, hs] at he
      cases he

theorem srtpInstall_spec (h : DtlsHandshake E) : call .srtpInstall h = none ∨
      Ends (call .srtpInstall) h fun r h' => h' = h ∧ r = (installKeys h).map .keys := by
  have unfolded : ∀ {Q}, Ends (call .srtpInstall) h Q ↔ match installKeys h with
      | .error e => Q (.error e) h
      | .ok k => k.local ≠ k.remote ∧ Q (.ok (.keys k)) h := by
    intro Q
    rw [call, ends_try_map, DtlsHandshake.srtpInstall, ends_try_bind, ends_try_get]
    cases hk : installKeys h with
    | error e => simp only [ends_try_bind, ends_ofExcept, hk, Except.map]
    | ok k =>
      simp only [ends_try_bind, ends_ofExcept, hk, ends_lift, ends_assert,
        ends_try_pure, Except.map, decide_eq_true_eq]
  by_cases hn : call .srtpInstall h = none
  · exact .inl hn
  · obtain ⟨⟨r, h'⟩, hr⟩ := Option.ne_none_iff_exists'.1 hn
    have hends := (unfolded (Q := fun _ _ => True)).1 ⟨r, h', hr, trivial⟩
    refine .inr (unfolded.2 ?_)
    cases hk : installKeys h with
    | error e => exact ⟨rfl, rfl⟩
    | ok k =>
      rw [hk] at hends
      exact ⟨hends.1, rfl, rfl⟩

theorem call_spec (hc : Coherent h) (c : Call) :
    c = .srtpInstall ∧ call c h = none ∨ Ends (call c) h (Advances c h) := by
  cases c with
  | onAnswer role fingerprint => exact .inr (onAnswer_spec hc role fingerprint)
  | onAddressSelected => exact .inr (onAddressSelected_spec hc)
  | process datagram => exact .inr (process_spec hc datagram)
  | handleTimeout => exact .inr (handleTimeout_spec hc)
  | freeSsl => exact .inr (freeSsl_spec hc)
  | srtpInstall =>
    refine (srtpInstall_spec h).imp (⟨rfl, ·⟩) (·.mono fun r h' hr => ?_)
    obtain ⟨rfl, rfl⟩ := hr
    refine .idle hc rfl rfl rfl nofun ?_ ?_ ?_
    · cases installKeys h' <;> rfl
    · intro e he
      cases hk : installKeys h' with
      | error e' =>
        rw [hk] at he
        cases he
        exact installKeys_error hk
      | ok k =>
        rw [hk] at he
        cases he
    · intro k he
      cases hk : installKeys h' with
      | error e' =>
        rw [hk] at he
        cases he
      | ok k => exact installKeys_ok hk

end

structure History (E : Type) where
  handshake : DtlsHandshake E := {}
  log : List (Call × Reply) := []

namespace History

variable {E : Type} [DtlsEngine E] {t : History E} {c : Call} {r : Reply} {h' : DtlsHandshake E}

def step (t : History E) (c : Call) : Option (History E) :=
  (call c t.handshake).map fun x => ⟨x.2, t.log ++ [(c, x.1)]⟩

def completions (t : History E) : Nat := t.log.countP (·.2.completed)

structure Recorded (t : History E) : Prop where
  coherent : t.handshake.Coherent
  once : t.completions ≤ 1
  running : t.handshake.state = .running → t.completions = 0
  settled : t.handshake.state = .complete ∨ t.handshake.state = .freed → t.completions ≠ 0
  answers : t.handshake.state ≠ .failed → ∀ role fp r, (.onAnswer role fp, r) ∈ t.log →
    t.handshake.remoteFingerprint = some fp ∧ t.handshake.role = some role
  signaled : ∀ fp, t.handshake.remoteFingerprint = some fp →
    ∃ role r, (.onAnswer role fp, r) ∈ t.log
  errors : t.handshake.state ≠ .failed → ∀ c e, (c, .error e) ∈ t.log → e.Harmless c

omit [DtlsEngine E] in
theorem recorded_new : Recorded ({} : History E) where
  coherent := ⟨Nat.zero_le 1, fun _ _ => rfl, nofun, nofun⟩
  once := Nat.zero_le 1
  running _ := rfl
  settled h := by rcases h with h | h <;> cases h
  answers _ _ _ _ h := absurd h (not_mem_nil)
  signaled := nofun
  errors _ _ _ h := absurd h (not_mem_nil)

omit [DtlsEngine E] in
theorem completions_concat :
    completions ⟨h', t.log ++ [(c, r)]⟩ = t.completions + if r.completed then 1 else 0 := by
  simp [completions, countP_append, countP_singleton]

theorem Recorded.advance (ht : Recorded t) (ha : Advances c t.handshake r h') :
    Recorded ⟨h', t.log ++ [(c, r)]⟩ := by
  -- a handshake that has not failed after the call had not failed before it
  have alive : h'.state ≠ .failed → t.handshake.state ≠ .failed := by
    intro hn hf
    cases ha.moves with
    | stay hs _ => exact hn (hs.trans hf)
    | fail hs _ => exact hn hs
    | finish hb _ _ _ => simp [hf] at hb
    | free hb _ _ => simp [hf] at hb
  refine ⟨ha.coherent, ?_, ?_, ?_, ?_, ?_, ?_⟩
  · rw [completions_concat]
    cases ha.moves with
    | stay _ hr | fail _ hr | free _ _ hr => simpa [hr] using ht.once
    | finish hb _ _ hr => simp [hr, ht.running hb]
  · intro hs
    rw [completions_concat]
    cases ha.moves with
    | stay hs' hr => simpa [hr] using ht.running (hs'.symm.trans hs)
    | fail hs' _ => simp [hs'] at hs
    | finish _ hs' _ _ => simp [hs'] at hs
    | free _ hs' _ => simp [hs'] at hs
  · intro hs
    rw [completions_concat]
    cases ha.moves with
    | stay hs' hr => simpa [hr] using ht.settled (by rwa [← hs'])
    | fail hs' _ => simp [hs'] at hs
    | finish _ _ _ hr => simp [hr]
    | free hb _ hr => simpa [hr] using ht.settled (.inl hb)
  · intro hn role fp r' hmem
    rcases mem_append.1 hmem with hmem | hmem
    · obtain ⟨hfp, hrole⟩ := ht.answers (alive hn) role fp r' hmem
      exact ⟨ha.keeps.pinned fp hfp, ha.keeps.role role hrole⟩
    · rw [mem_singleton] at hmem
      cases hmem
      exact ha.answered role fp rfl hn
  · intro fp hfp
    rcases ha.signaled fp hfp with hfp | ⟨role, rfl⟩
    · obtain ⟨role, r', hmem⟩ := ht.signaled fp hfp
      exact ⟨role, r', mem_append_left _ hmem⟩
    · exact ⟨role, r, mem_append_right _ (mem_singleton_self _)⟩
  · intro hn c' e hmem
    rcases mem_append.1 hmem with hmem | hmem
    · exact ht.errors (alive hn) c' e hmem
    · rw [mem_singleton] at hmem
      cases hmem
      exact (ha.error e rfl).resolve_left hn

theorem Recorded.step {t' : History E} (ht : Recorded t) (hstep : t.step c = some t') :
    Recorded t' := by
  obtain ⟨⟨r, h'⟩, hcall, rfl⟩ := Option.map_eq_some_iff.1 hstep
  rcases call_spec ht.coherent c with ⟨-, hnone⟩ | ⟨r', h'', hcall', ha⟩
  · simp [hnone] at hcall
  · cases hcall.symm.trans hcall'
    exact ht.advance ha

/-- The gate: one engine, one role, and completion reported once, for a certificate that every
answer vouched for and before any error that fails the handshake: a datagram that is not DTLS does
not, nor does a refused `srtp_install`, which changes nothing. -/
structure Gated (t : History E) : Prop where
  one_engine : t.handshake.starts ≤ 1
  no_panic : ∀ c, c ≠ .srtpInstall → t.step c ≠ none
  role_fixed : ∀ c t', t.step c = some t' → ∀ role, t.handshake.role = some role →
    t'.handshake.role = some role
  completed_once : t.completions ≤ 1
  completed : ∀ c r h', call c t.handshake = some (r, h') → r.completed = true →
    (∃ e fp, h'.engine = some e ∧ DtlsEngine.isEstablished e = true ∧
      DtlsEngine.peerFingerprint e = some fp ∧ fp.toList.all (· == 0) = false ∧
      (∃ role r', (.onAnswer role fp, r') ∈ t.log ++ [(c, r)]) ∧
      ∀ role fp' r', (.onAnswer role fp', r') ∈ t.log ++ [(c, r)] →
        fp' = fp ∧ h'.role = some role) ∧
    ∀ c' e, (c', .error e) ∈ t.log → e.Harmless c'
  installed : ∀ k h', call .srtpInstall t.handshake = some (.ok (.keys k), h') →
    t.completions = 1
  not_installed : ∀ e h', call .srtpInstall t.handshake = some (.error e, h') → h' = t.handshake

theorem Recorded.completed (ht : Recorded t) (ha : Advances c t.handshake r h')
    (hr : r.completed = true) :
    (∃ e fp, h'.engine = some e ∧ DtlsEngine.isEstablished e = true ∧
      DtlsEngine.peerFingerprint e = some fp ∧ fp.toList.all (· == 0) = false ∧
      (∃ role r', (.onAnswer role fp, r') ∈ t.log ++ [(c, r)]) ∧
      ∀ role fp' r', (.onAnswer role fp', r') ∈ t.log ++ [(c, r)] →
      fp' = fp ∧ h'.role = some role) ∧
    ∀ c' e, (c', .error e) ∈ t.log → e.Harmless c' := by
  have ht' := ht.advance ha
  cases ha.moves with
  | stay _ hr' | fail _ hr' | free _ _ hr' => simp [hr] at hr'
  | finish hb hs hv _ =>
    obtain ⟨e, fp, he, hest, hpeer, hfp⟩ := hv
    have hn : h'.state ≠ .failed := by simp [hs]
    refine ⟨⟨e, fp, he, hest, hpeer, ht'.coherent.nonzero fp hfp, ht'.signaled fp hfp, ?_⟩,
      ht.errors (by simp [hb])⟩
    intro role fp' r' hmem
    obtain ⟨hfp', hrole⟩ := ht'.answers hn role fp' r' hmem
    exact ⟨Option.some.inj (hfp'.symm.trans hfp), hrole⟩

theorem handshake_gated (calls : List Call) (t : History E) (hrun : run step {} calls = some t) :
    t.Gated := by
  have ht : Recorded t := run_preserves (fun _ _ _ ht hstep => ht.step hstep) recorded_new hrun
  have advances : ∀ {c r h'}, call c t.handshake = some (r, h') →
      Advances c t.handshake r h' := by
    intro c r h' hcall
    rcases call_spec ht.coherent c with ⟨-, hnone⟩ | ⟨r', h'', hcall', ha⟩
    · simp [hnone] at hcall
    · cases hcall.symm.trans hcall'
      exact ha
  refine ⟨ht.coherent.starts_le, ?_, ?_, ht.once,
    fun c r h' hcall => ht.completed (advances hcall), ?_, ?_⟩
  · intro c hc hnone
    rcases call_spec ht.coherent c with ⟨hc', -⟩ | ⟨r, h', hcall, -⟩
    · exact hc hc'
    · simp [step, hcall] at hnone
  · intro c t' hstep role hrole
    obtain ⟨⟨r, h'⟩, hcall, rfl⟩ := Option.map_eq_some_iff.1 hstep
    exact (advances hcall).keeps.role role hrole
  · intro k h' hcall
    have hs := (advances hcall).installed k rfl
    have hpos := ht.settled (.inl hs)
    have hle := ht.once
    omega
  · intro e h' hcall
    rcases srtpInstall_spec t.handshake with hnone | ⟨r, h'', hcall', hsame, -⟩
    · simp [hnone] at hcall
    · cases hcall.symm.trans hcall'
      exact hsame

end History

structure EagerEngine

def eagerFingerprint : Fingerprint := Vector.replicate 32 1

instance : DtlsEngine EagerEngine where
  withCertificate _ := ⟨⟩
  startHandshake e := (.ok [], e)
  process e _ := (.ok [], e)
  handleTimeout e := (.ok [], e)
  isEstablished _ := true
  peerFingerprint _ := some eagerFingerprint
  srtpKeys _ := none

theorem handshake_gated_eager :
    ∃ t : History EagerEngine, run History.step {} [.onAnswer .server eagerFingerprint] =
      some t ∧ t.completions = 1 ∧ t.Gated := by
  refine ⟨_, rfl, ?_, History.handshake_gated [.onAnswer .server eagerFingerprint] _ rfl⟩
  rfl

theorem completed_after_keys_error : ∃ t : History EagerEngine,
      run History.step {} [.srtpInstall, .onAnswer .server eagerFingerprint] = some t ∧
      t.log.map Prod.snd = [.error (.keys "handshake not complete"),
        .ok (.progress { completed := true })] := by
  refine ⟨_, rfl, ?_⟩
  rfl

end NexusSfu.Orchestrator
