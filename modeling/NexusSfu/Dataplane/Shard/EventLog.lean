import NexusSfu.Dataplane.Shard.State

namespace NexusSfu.Dataplane

open List Option

def Fate.kept : Fate → Bool
  | sent | retained => true
  | full | closed | afterConsent => false

def Event.subject : Event → Option SessionId
  | commandRejected _ _ => none
  | e => e.session

structure Account where
  consentLost : Bool
  verified : Bool
  selected : Option SocketAddr

namespace Account

def fresh : Account := ⟨false, false, none⟩

def hear (a : Account) : Event → Account
  | .consentLost _ => { a with consentLost := true }
  | .peerSrtpVerified _ => { a with verified := true }
  | .addressSelected _ addr _ => { a with selected := some addr }
  | _ => a

theorem hear_consentLost {a : Account} {e : Event} :
    (a.hear e).consentLost = true ↔ a.consentLost = true ∨ ∃ id, e = .consentLost id := by
  cases e <;> simp [hear]

theorem hear_verified {a : Account} {e : Event} (h : a.verified = true) :
    (a.hear e).verified = true := by
  cases e <;> simp [hear, h]

end Account

def Entry.apply (id : SessionId) (a : Option Account) : Entry → Option Account
  | opened i => if i = id then some .fresh else a
  | closed i => if i = id then none else a
  | emitted e _ fate => if fate.kept ∧ e.session = some id then a.map fun a => a.hear e else a

def account (id : SessionId) (log : List Entry) : Option Account :=
  log.foldl (fun a e => e.apply id a) none

@[simp] theorem account_nil (id : SessionId) : account id [] = none := rfl

@[simp] theorem account_snoc (id : SessionId) (log : List Entry) (e : Entry) :
    account id (log ++ [e]) = e.apply id (account id log) := by
  simp [account]

def Lost (log : List Entry) (id : SessionId) : Prop :=
  ∃ (n waiting : Nat) (fate : Fate),
    log[n]? = some (Entry.emitted (.consentLost id) waiting fate) ∧ fate.kept = true ∧
    ∀ m, n < m → log[m]? ≠ some (Entry.closed id)

structure FitsEvent (log : List Entry) (e : Event) (waiting : Nat) (fate : Fate) : Prop where
  subject : ∀ id, e.subject = some id → (account id log).isSome
  notClosed : fate ≠ .closed
  lost : fate = .afterConsent ↔ ∃ id, e.session = some id ∧ Lost log id
  full : e.isDtls = false → (fate = .full ↔ fate ≠ .afterConsent ∧ waiting = eventRetention)
  verified : fate.kept = true → ∀ id, e = .peerSrtpVerified id →
    ∀ a, account id log = some a → a.verified = false

def Fits (log : List Entry) : Entry → Prop
  | .opened id => account id log = none
  | .closed id => (account id log).isSome
  | .emitted e waiting fate => FitsEvent log e waiting fate

inductive Recorded : List Entry → Prop
  | nil : Recorded []
  | snoc {log : List Entry} {e : Entry} : Recorded log → Fits log e → Recorded (log ++ [e])

variable {log : List Entry} {id : SessionId} {e : Entry} {i n m : Nat} {a : Account}

theorem Recorded.fits (h : Recorded log) (hi : log[i]? = some e) : Fits (log.take i) e := by
  induction h with
  | nil => simp at hi
  | @snoc log e' h hfit ih =>
    rcases Nat.lt_trichotomy i log.length with hlt | rfl | hgt
    · rw [List.getElem?_append_left hlt] at hi
      rw [take_append_of_le_length (Nat.le_of_lt hlt)]
      exact ih hi
    · simp only [getElem?_concat_length, Option.some.injEq] at hi
      rw [take_left, ← hi]
      exact hfit
    · rw [getElem?_eq_none (by simp; omega)] at hi
      cases hi

theorem lost_snoc : Lost (log ++ [e]) id ↔
    (∃ waiting fate, e = Entry.emitted (.consentLost id) waiting fate ∧ fate.kept = true) ∨
      (Lost log id ∧ e ≠ .closed id) := by
  constructor
  · rintro ⟨n, waiting, fate, hn, hkept, hopen⟩
    rcases Nat.lt_trichotomy n log.length with hlt | rfl | hgt
    · rw [List.getElem?_append_left hlt] at hn
      refine .inr ⟨⟨n, waiting, fate, hn, hkept, fun m hm hc => hopen m hm ?_⟩,
        fun hc => ?_⟩
      · rw [List.getElem?_append_left (List.getElem?_eq_some_iff.1 hc).1]
        exact hc
      · exact hopen log.length hlt (by simp [hc])
    · exact .inl ⟨waiting, fate, by simpa using hn, hkept⟩
    · rw [getElem?_eq_none (by simp; omega)] at hn
      cases hn
  · rintro (⟨waiting, fate, rfl, hkept⟩ | ⟨⟨n, waiting, fate, hn, hkept, hopen⟩, hne⟩)
    · refine ⟨log.length, waiting, fate, by simp, hkept, fun m hm => ?_⟩
      rw [getElem?_eq_none (by simp; omega)]
      simp
    · have hlt := (List.getElem?_eq_some_iff.1 hn).1
      refine ⟨n, waiting, fate, (List.getElem?_append_left hlt).trans hn, hkept,
        fun m hm hc => ?_⟩
      rcases Nat.lt_trichotomy m log.length with hlt' | rfl | hgt
      · exact hopen m hm ((List.getElem?_append_left hlt').symm.trans hc)
      · exact hne (by simpa using hc)
      · rw [getElem?_eq_none (by simp; omega)] at hc
        cases hc

theorem Recorded.lost_iff (h : Recorded log) :
    Lost log id ↔ ∃ a, account id log = some a ∧ a.consentLost = true := by
  induction h with
  | nil => simp [Lost]
  | @snoc log e h hfit ih =>
    rw [lost_snoc, ih, account_snoc]
    cases e with
    | opened i =>
      by_cases hi : i = id
      · subst hi
        have hnone : account i log = none := hfit
        simp [Entry.apply, hnone, Account.fresh]
      · simp [Entry.apply, hi]
    | closed i =>
      by_cases hi : i = id
      · simp [Entry.apply, hi]
      · simp [Entry.apply, hi]
    | emitted e waiting fate =>
      have hfit : FitsEvent log e waiting fate := hfit
      by_cases hk : fate.kept = true ∧ e.session = some id
      · have hnot : ¬ ∃ a, account id log = some a ∧ a.consentLost = true := by
          rw [← ih]
          intro hl
          have hafter := hfit.lost.2 ⟨id, hk.2, hl⟩
          rw [hafter] at hk
          exact absurd hk.1 (by simp [Fate.kept])
        rw [Entry.apply, if_pos hk]
        constructor
        · rintro (⟨w, f, he, -⟩ | ⟨hl, -⟩)
          · cases he
            obtain ⟨a, ha⟩ := isSome_iff_exists.1 (hfit.subject id rfl)
            exact ⟨_, map_eq_some_iff.2 ⟨a, ha, rfl⟩, rfl⟩
          · exact absurd hl hnot
        · rintro ⟨_, hmap, hl⟩
          obtain ⟨a, ha, rfl⟩ := map_eq_some_iff.1 hmap
          rcases Account.hear_consentLost.1 hl with hl | ⟨i, rfl⟩
          · exact absurd ⟨a, ha, hl⟩ hnot
          · obtain rfl : i = id := Option.some.inj hk.2
            exact .inl ⟨waiting, fate, rfl, hk.1⟩
      · rw [Entry.apply, if_neg hk]
        constructor
        · rintro (⟨w, f, he, hkept⟩ | ⟨hl, -⟩)
          · cases he
            exact absurd ⟨hkept, rfl⟩ hk
          · exact hl
        · exact fun hl => .inr ⟨hl, by simp⟩

theorem Recorded.persists {P : Account → Prop} (hP : ∀ a e, P a → P (a.hear e))
    (h : Recorded log) (ha : account id (log.take n) = some a) (hPa : P a) (hnm : n ≤ m)
    (hm : m ≤ log.length)
    (hopen : ∀ j, n ≤ j → j < m → log[j]? ≠ some (Entry.closed id)) :
    ∃ a, account id (log.take m) = some a ∧ P a := by
  induction m, hnm using Nat.le_induction with
  | base => exact ⟨a, ha, hPa⟩
  | succ m hnm ih =>
    obtain ⟨a, ha, hPa⟩ := ih (by omega) fun j hj hlt => hopen j hj (by omega)
    have hget : log[m]? = some log[m] := getElem?_eq_getElem (by omega)
    have hfit := h.fits hget
    have hclosed := hopen m hnm (by omega)
    rw [hget] at hclosed
    rw [take_succ_eq_append_getElem (by omega), account_snoc, ha]
    cases he : log[m] with
    | opened i =>
      rw [he] at hfit
      have hnone : account i (log.take m) = none := hfit
      have hi : i ≠ id := by
        rintro rfl
        simp [ha] at hnone
      simpa [Entry.apply, hi] using hPa
    | closed i =>
      have hi : i ≠ id := by
        rintro rfl
        exact hclosed (by rw [he])
      simpa [Entry.apply, hi] using hPa
    | emitted e w f =>
      rw [Entry.apply]
      split_ifs
      · exact ⟨_, rfl, hP a e hPa⟩
      · exact ⟨a, rfl, hPa⟩

theorem Recorded.closed_of_lost (h : Recorded log) {w w' : Nat} {f f' : Fate} {e : Event}
    (hn : log[n]? = some (.emitted (.consentLost id) w f)) (hf : f.kept = true)
    (hm : log[m]? = some (.emitted e w' f')) (hf' : f'.kept = true) (he : e.session = some id)
    (hnm : n < m) : ∃ j, n < j ∧ j < m ∧ log[j]? = some (.closed id) := by
  by_contra hnone
  have hfit : FitsEvent (log.take m) e w' f' := h.fits hm
  have hlost : Lost (log.take m) id := by
    refine ⟨n, w, f, (getElem?_take_of_lt hnm).trans hn, hf,
      fun j hj hc => hnone ⟨j, hj, ?_⟩⟩
    have hlt : j < m := by
      have := (List.getElem?_eq_some_iff.1 hc).1
      rw [length_take] at this
      omega
    exact ⟨hlt, (getElem?_take_of_lt hlt).symm.trans hc⟩
  rw [hfit.lost.2 ⟨id, he, hlost⟩] at hf'
  cases hf'

theorem Recorded.closed_of_verified (h : Recorded log) {w w' : Nat} {f f' : Fate}
    (hn : log[n]? = some (.emitted (.peerSrtpVerified id) w f)) (hf : f.kept = true)
    (hm : log[m]? = some (.emitted (.peerSrtpVerified id) w' f')) (hf' : f'.kept = true)
    (hnm : n < m) : ∃ j, n < j ∧ j < m ∧ log[j]? = some (.closed id) := by
  by_contra hnone
  have hfit : FitsEvent (log.take n) (.peerSrtpVerified id) w f := h.fits hn
  have hfit' : FitsEvent (log.take m) (.peerSrtpVerified id) w' f' := h.fits hm
  obtain ⟨a, ha⟩ := isSome_iff_exists.1 (hfit.subject id rfl)
  obtain ⟨hlt, hget⟩ := List.getElem?_eq_some_iff.1 hn
  obtain ⟨hlt', -⟩ := List.getElem?_eq_some_iff.1 hm
  have hnext : account id (log.take (n + 1)) = some (a.hear (.peerSrtpVerified id)) := by
    rw [take_succ_eq_append_getElem hlt, account_snoc, hget, ha, Entry.apply,
      if_pos ⟨hf, rfl⟩]
    rfl
  obtain ⟨a', ha', hv⟩ := h.persists (P := fun a => a.verified = true)
    (fun a e => Account.hear_verified) hnext rfl hnm (Nat.le_of_lt hlt')
    fun j hj hlt hc => hnone ⟨j, hj, hlt, hc⟩
  rw [hfit'.verified hf' id rfl a' ha'] at hv
  cases hv

section Kept

def Entry.emission : Entry × Nat → Option Emission
  | (emitted e _ fate, n) => if fate.kept ∧ e.isDtls = false then some ⟨n, e⟩ else none
  | _ => none

def keptEmissions (log : List Entry) : List Emission := log.zipIdx.filterMap Entry.emission

theorem keptEmissions_snoc (log : List Entry) (e : Entry) :
    keptEmissions (log ++ [e]) = keptEmissions log ++ (Entry.emission (e, log.length)).toList := by
  simp only [keptEmissions, zipIdx_append, filterMap_append, Nat.zero_add,
    zipIdx_singleton]
  cases h : Entry.emission (e, log.length) <;> simp [h]

def Emission.selects (id : SessionId) (m : Emission) : Bool :=
  match m.event with
  | .addressSelected i _ _ => i = id
  | _ => false

theorem selected_last {addr : SocketAddr} (ha : account id log = some a)
    (hs : a.selected = some addr) :
    ∃ n reason, ((keptEmissions log).filter (Emission.selects id)).getLast? =
      some ⟨n, .addressSelected id addr reason⟩ := by
  induction log using List.reverseRecOn generalizing a with
  | nil => simp at ha
  | append_singleton log e ih =>
    rw [account_snoc] at ha
    rw [keptEmissions_snoc, filter_append]
    cases e with
    | opened i =>
      rw [Entry.apply] at ha
      split_ifs at ha with hi
      · cases ha
        cases hs
      · simpa [Entry.emission] using ih ha hs
    | closed i =>
      rw [Entry.apply] at ha
      split_ifs at ha with hi
      simpa [Entry.emission] using ih ha hs
    | emitted e w f =>
      rw [Entry.apply] at ha
      split_ifs at ha with hk
      · obtain ⟨a, hold, rfl⟩ := map_eq_some_iff.1 ha
        cases e with
        | addressSelected i c reason =>
          obtain rfl : i = id := Option.some.inj hk.2
          obtain rfl : c = addr := Option.some.inj hs
          exact ⟨log.length,
            reason, by simp [Entry.emission, hk.1, Event.isDtls, Emission.selects]⟩
        | dtlsDatagram i bytes => simpa [Entry.emission, Event.isDtls] using ih hold hs
        | peerSrtpVerified i =>
          simpa [Entry.emission, Event.isDtls, hk.1, Emission.selects] using ih hold hs
        | consentLost i =>
          simpa [Entry.emission, Event.isDtls, hk.1, Emission.selects] using ih hold hs
        | commandRejected i r =>
          simpa [Entry.emission, Event.isDtls, hk.1, Emission.selects] using ih hold hs
      · have hnone : (Entry.emission (.emitted e w f, log.length)).toList.filter
            (Emission.selects id) = [] := by
          simp only [Entry.emission]
          split_ifs with hkept
          · have hne : e.session ≠ some id := fun he => hk ⟨hkept.1, he⟩
            cases e <;> simp_all [Emission.selects, Event.session]
          · rfl
        rw [hnone, append_nil]
        exact ih ha hs

end Kept

def Entry.isFull : Entry → Bool
  | emitted _ _ fate => fate = .full
  | _ => false

namespace Outbox

variable {ε : Type} {o : Outbox ε} {full : Nat}

structure Ordered (o : Outbox ε) (full : Nat) : Prop where
  recorded : Recorded o.log
  kept : (o.accepted ++ o.pending).filter (fun m => !m.event.isDtls) = keptEmissions o.log
  genuine : ∀ m ∈ o.accepted ++ o.pending, ∃ w fate,
    o.log[m.serial]? = some (.emitted m.event w fate) ∧ fate.kept = true
  ordered : (o.accepted ++ o.pending).Pairwise fun a b => a.event.isDtls = false →
    a.serial < b.serial
  retained : ∀ m ∈ o.pending, m.event.isDtls = false
  counted : full = o.log.countP Entry.isFull

theorem Ordered.serial_lt (h : o.Ordered full) {m : Emission} (hm : m ∈ o.accepted ++ o.pending) :
    m.serial < o.log.length := by
  obtain ⟨w, f, hget, -⟩ := h.genuine m hm
  exact (List.getElem?_eq_some_iff.1 hget).1

theorem Ordered.genuine_snoc (h : o.Ordered full) (e : Entry) {m : Emission}
    (hm : m ∈ o.accepted ++ o.pending) :
    ∃ w fate, (o.log ++ [e])[m.serial]? = some (.emitted m.event w fate) ∧
      fate.kept = true := by
  obtain ⟨w, f, hget, hkept⟩ := h.genuine m hm
  exact ⟨w, f, (List.getElem?_append_left (h.serial_lt hm)).trans hget, hkept⟩

theorem Ordered.withEvents (h : o.Ordered full) (events : ε) : { o with events }.Ordered full :=
  ⟨h.recorded, h.kept, h.genuine, h.ordered, h.retained, h.counted⟩

theorem Ordered.record (h : o.Ordered full) {e : Entry} (hfit : Fits o.log e)
    (hnone : Entry.emission (e, o.log.length) = none) :
    { o with log := o.log ++ [e] }.Ordered (full + e.isFull.toNat) where
  recorded := .snoc h.recorded hfit
  kept := by simpa [keptEmissions_snoc, hnone] using h.kept
  genuine _ := h.genuine_snoc e
  ordered := h.ordered
  retained := h.retained
  counted := by
    rw [countP_append, h.counted]
    cases hf : e.isFull <;> simp [hf]

theorem Ordered.pairwise_snoc (h : o.Ordered full) (e : Event) :
    (o.accepted ++ o.pending ++ [(⟨o.log.length, e⟩ : Emission)]).Pairwise
      fun a b => a.event.isDtls = false → a.serial < b.serial := by
  refine pairwise_append.2 ⟨h.ordered, pairwise_singleton _ _, fun a ha b hb _ => ?_⟩
  rw [mem_singleton.1 hb]
  exact h.serial_lt ha

theorem Ordered.retain (h : o.Ordered full) {e : Event} {w : Nat}
    (hfit : FitsEvent o.log e w .retained) (hdtls : e.isDtls = false) : { o with
      pending := o.pending ++ [(⟨o.log.length, e⟩ : Emission)]
      log := o.log ++ [Entry.emitted e w .retained] }.Ordered full where
  recorded := .snoc h.recorded hfit
  kept := by
    rw [keptEmissions_snoc, ← h.kept, ← append_assoc, filter_append]
    simp [Entry.emission, Fate.kept, hdtls]
  genuine m hm := by
    rw [← append_assoc, mem_append] at hm
    rcases hm with hm | hm
    · exact h.genuine_snoc _ hm
    · rw [mem_singleton.1 hm]
      exact ⟨w, .retained, by simp, rfl⟩
  ordered := by
    rw [← append_assoc]
    exact h.pairwise_snoc e
  retained m hm := by
    rcases mem_append.1 hm with hm | hm
    · exact h.retained m hm
    · rw [mem_singleton.1 hm]
      exact hdtls
  counted := by simp [h.counted, Entry.isFull]

theorem Ordered.send (h : o.Ordered full) {e : Event} {w : Nat} (hfit : FitsEvent o.log e w .sent)
    (hfirst : o.pending = [] ∨ e.isDtls = true) (events : ε) : { o with
      events
      accepted := o.accepted ++ [(⟨o.log.length, e⟩ : Emission)]
      log := o.log ++ [Entry.emitted e w .sent] }.Ordered full where
  recorded := .snoc h.recorded hfit
  kept := by
    rw [keptEmissions_snoc, ← h.kept]
    rcases hfirst with hnil | hdtls
    · cases hd : e.isDtls <;> simp [hnil, Entry.emission, Fate.kept, hd]
    · simp [Entry.emission, Fate.kept, hdtls]
  genuine m hm := by
    rw [append_assoc, mem_append, mem_append] at hm
    rcases hm with hm | hm | hm
    · exact h.genuine_snoc _ (mem_append_left _ hm)
    · rw [mem_singleton.1 hm]
      exact ⟨w, .sent, by simp, rfl⟩
    · exact h.genuine_snoc _ (mem_append_right _ hm)
  ordered := by
    have hnew := h.pairwise_snoc e
    rcases hfirst with hnil | hdtls
    · simpa [hnil] using hnew
    · -- A DTLS datagram goes before what is retained, which the order does not mind.
      rw [append_assoc] at hnew
      obtain ⟨hacc, hrest, hcross⟩ := pairwise_append.1 hnew
      obtain ⟨hpend, -, -⟩ := pairwise_append.1 hrest
      rw [append_assoc]
      refine pairwise_append.2 ⟨hacc, pairwise_cons.2 ⟨?_, hpend⟩, fun a ha b hb => ?_⟩
      · intro b _ hd
        simp [hdtls] at hd
      · refine hcross a ha b ?_
        rcases mem_cons.1 hb with rfl | hb
        · exact mem_append_right _ (mem_singleton_self _)
        · exact mem_append_left _ hb
  retained := h.retained
  counted := by simp [h.counted, Entry.isFull]

theorem Ordered.offer (h : o.Ordered full) {m : Emission} {rest : List Emission}
    (hp : o.pending = m :: rest) (events : ε) :
    { o with events, pending := rest, accepted := o.accepted ++ [m] }.Ordered full := by
  have hsame : o.accepted ++ [m] ++ rest = o.accepted ++ o.pending := by simp [hp]
  refine ⟨h.recorded, ?_, ?_, ?_, fun b hb => h.retained b ?_, h.counted⟩
  · rw [hsame]
    exact h.kept
  · rw [hsame]
    exact h.genuine
  · rw [hsame]
    exact h.ordered
  · rw [hp]
    exact mem_cons_of_mem _ hb

structure Delivers (o : Outbox ε) (full : Nat) : Prop where
  kept : (o.accepted ++ o.pending).filter (fun m => !m.event.isDtls) = keptEmissions o.log
  dropped : ∀ n e waiting fate, o.log[n]? = some (.emitted e waiting fate) →
    e.isDtls = false →
    (fate = .sent ∨ fate = .retained) ∨ (fate = .full ∧ waiting = eventRetention) ∨
      (fate = .afterConsent ∧ ∃ id, e.session = some id ∧ Lost (o.log.take n) id)
  counted : full = o.log.countP Entry.isFull
  consentLost_last : ∀ (i j : Nat) (id : SessionId) (m m' : Emission), i < j →
    o.accepted[i]? = some m → o.accepted[j]? = some m' → m.event = .consentLost id →
    m'.event.session = some id →
    ∃ n, m.serial < n ∧ n < m'.serial ∧ o.log[n]? = some (.closed id)
  once : ∀ (i j : Nat) (id : SessionId) (m m' : Emission), i < j →
    (o.accepted ++ o.pending)[i]? = some m → (o.accepted ++ o.pending)[j]? = some m' →
    m.event = m'.event → m.event = .consentLost id ∨ m.event = .peerSrtpVerified id →
    ∃ n, m.serial < n ∧ n < m'.serial ∧ o.log[n]? = some (.closed id)

theorem Ordered.genuine_lt (h : o.Ordered full) {i j : Nat} {m m' : Emission} (hij : i < j)
    (hi : (o.accepted ++ o.pending)[i]? = some m) (hj : (o.accepted ++ o.pending)[j]? = some m')
    (hd : m.event.isDtls = false) : m.serial < m'.serial ∧
      (∃ w f, o.log[m.serial]? = some (.emitted m.event w f) ∧ f.kept = true) ∧
      ∃ w f, o.log[m'.serial]? = some (.emitted m'.event w f) ∧ f.kept = true := by
  obtain ⟨hlti, rfl⟩ := List.getElem?_eq_some_iff.1 hi
  obtain ⟨hltj, rfl⟩ := List.getElem?_eq_some_iff.1 hj
  exact ⟨pairwise_iff_getElem.1 h.ordered i j hlti hltj hij hd,
    h.genuine _ (getElem_mem hlti), h.genuine _ (getElem_mem hltj)⟩

theorem Ordered.delivers (h : o.Ordered full) : o.Delivers full where
  kept := h.kept
  counted := h.counted
  dropped n e waiting fate hn hd := by
    have hfit : FitsEvent (o.log.take n) e waiting fate := h.recorded.fits hn
    cases fate with
    | sent => exact .inl (.inl rfl)
    | retained => exact .inl (.inr rfl)
    | full => exact .inr (.inl ⟨rfl, ((hfit.full hd).1 rfl).2⟩)
    | closed => exact absurd rfl hfit.notClosed
    | afterConsent => exact .inr (.inr ⟨rfl, hfit.lost.1 rfl⟩)
  consentLost_last i j id m m' hij hi hj he he' := by
    obtain ⟨hlt, ⟨w, f, hn, hf⟩, w', f', hm, hf'⟩ := h.genuine_lt hij
      (List.getElem?_append_left (List.getElem?_eq_some_iff.1 hi).1 ▸ hi)
      (List.getElem?_append_left (List.getElem?_eq_some_iff.1 hj).1 ▸ hj)
        (by simp [he, Event.isDtls])
    rw [he] at hn
    exact h.recorded.closed_of_lost hn hf hm hf' he' hlt
  once i j id m m' hij hi hj he hid := by
    have hd : m.event.isDtls = false := by
      rcases hid with hid | hid <;> simp [hid, Event.isDtls]
    obtain ⟨hlt, ⟨w, f, hn, hf⟩, w', f', hm, hf'⟩ := h.genuine_lt hij hi hj hd
    rw [← he] at hm
    rcases hid with hid | hid
    · rw [hid] at hn hm
      exact h.recorded.closed_of_lost hn hf hm hf' rfl hlt
    · rw [hid] at hn hm
      exact h.recorded.closed_of_verified hn hf hm hf' hlt

end Outbox
end NexusSfu.Dataplane
