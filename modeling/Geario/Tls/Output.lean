import Geario.Io.State
/-!
# Output through TLS

`process_write_buf` moves plaintext from the source buffer to the session, page by
page, and records from the session to the destination. The session is a FIFO that
takes what it likes of each write.
-/
open List

namespace Geario.Tls

open Io (Data)

structure Session (σ : Type) where
  write : σ → Data → Nat × σ
  wants_write : σ → Bool
  write_tls : σ → Data × σ
  /-- the records that have not been written -/
  pending : σ → Data
  write_le : ∀ s page, (write s page).1 ≤ page.length
  pending_write : ∀ s page, pending s <+: pending (write s page).2
  /-- records are made of plaintext that was accepted -/
  pending_refused : ∀ s page, (write s page).1 = 0 → pending (write s page).2 = pending s
  wants_write_iff : ∀ s, wants_write s = true ↔ pending s ≠ []
  write_tls_append : ∀ s, (write_tls s).1 ++ pending (write_tls s).2 = pending s
  write_tls_ne_nil : ∀ s, wants_write s = true → (write_tls s).1 ≠ []

structure Stream (σ : Type) where
  session : σ
  w_src : List Data
  w_dst : Data
  /-- the plaintext that was accepted since the call began -/
  accepted : Data
  /-- the records that have been pending since then -/
  records : Data

namespace Session

variable {σ : Type} (S : Session σ)

/-- The loop that writes to the session, for the pages of the source. -/
def write_pages : List Data → Stream σ → Stream σ
  | [], st => { st with w_src := [] }
  | page :: pages, st =>
    let (n, session) := S.write st.session page
    let st := { st with
      session
      accepted := st.accepted ++ page.take n
      records := st.records ++ (S.pending session).drop (S.pending st.session).length }
    -- a page that is not empty is put back in front
    if page.drop n = [] then write_pages pages st else { st with w_src := page.drop n :: pages }

/-- The inner loop, up to `Ok(0)`: writing to the destination does not fail. -/
def write_records (st : Stream σ) : Stream σ :=
  let st' := { st with session := (S.write_tls st.session).2, w_dst := st.w_dst ++ (S.write_tls st.session).1 }
  if (S.write_tls st.session).1 = [] then st' else write_records st'
termination_by (S.pending st.session).length
decreasing_by
  rw [← S.write_tls_append st.session, length_append]
  have := length_pos_iff.2 ‹_ ≠ []›
  omega

def Short (session : σ) : Prop := ∃ s page, (S.write s page).1 < page.length ∧ session = (S.write s page).2

structure Fed (pages : List Data) (st st' : Stream σ) : Prop where
  taken : ∃ a, st'.accepted = st.accepted ++ a ∧ a ++ st'.w_src.flatten = pages.flatten ∧
    (a = [] → S.pending st'.session = S.pending st.session)
  records : ∃ r, st'.records = st.records ++ r ∧ S.pending st'.session = S.pending st.session ++ r
  w_dst : st'.w_dst = st.w_dst
  short : st'.w_src.flatten ≠ [] → S.Short st'.session

lemma fed (pages : List Data) (st : Stream σ) : S.Fed pages st (S.write_pages pages st) := by
  induction pages generalizing st with
  | nil => exact ⟨⟨[], by simp [write_pages]⟩, ⟨[], by simp [write_pages]⟩, rfl, fun h => absurd rfl h⟩
  | cons page pages ih =>
    have hle := S.write_le st.session page
    have hnone := S.pending_refused st.session page
    have hshort : (S.write st.session page).1 < page.length → S.Short (S.write st.session page).2 :=
      fun hlt => ⟨st.session, page, hlt, rfl⟩
    obtain ⟨r, hr⟩ := S.pending_write st.session page
    rw [write_pages]
    generalize S.write st.session page = w at *
    have hsame : page.take w.1 = [] → S.pending w.2 = S.pending st.session := fun h =>
      hnone ((take_eq_nil_iff.1 h).elim id fun h => by simpa [h] using hle)
    simp only [← hr, drop_left]
    split
    next hend =>
      obtain ⟨⟨a, ha, hflat, hsame'⟩, ⟨r', hr', hp⟩, hdst, hshort⟩ :=
        ih { st with session := w.2, accepted := st.accepted ++ page.take w.1, records := st.records ++ r }
      have htake := take_append_drop w.1 page
      rw [hend, append_nil] at htake
      refine ⟨⟨page.take w.1 ++ a, by rw [ha, append_assoc], by rw [append_assoc, hflat, htake, flatten_cons], fun h => ?_⟩,
        ⟨r ++ r', by rw [hr', append_assoc], by rw [hp, ← hr, append_assoc]⟩, hdst, hshort⟩
      obtain ⟨h, h'⟩ := append_eq_nil_iff.1 h
      exact (hsame' h').trans (hsame h)
    next hend =>
      refine ⟨⟨_, rfl, ?_, hsame⟩, ⟨r, rfl, hr.symm⟩, rfl, fun _ => hshort ?_⟩
      · rw [flatten_cons, flatten_cons, ← append_assoc, take_append_drop]
      · exact Nat.lt_of_not_le fun h => hend (drop_eq_nil_of_le h)

lemma write_records_spec (st : Stream σ) : S.pending (S.write_records st).session = [] ∧
    S.write_records st = { st with session := (S.write_records st).session, w_dst := st.w_dst ++ S.pending st.session } := by
  fun_induction write_records S st with
  | case1 st st' hpiece =>
    have hnil : S.pending st.session = [] := by
      by_contra hne
      exact S.write_tls_ne_nil _ ((S.wants_write_iff _).2 hne) hpiece
    have happ := S.write_tls_append st.session
    rw [hpiece, nil_append, hnil] at happ
    exact ⟨happ, by simp [st', hpiece, hnil]⟩
  | case2 st st' hpiece ih =>
    refine ⟨ih.1, ih.2.trans ?_⟩
    simp only [st', append_assoc, S.write_tls_append]

/-- Without new plaintext there are no new records, so that every round but the first takes some. -/
def process_write_buf (st : Stream σ) : Stream σ :=
  let st' := S.write_pages st.w_src st
  if S.wants_write st'.session then process_write_buf (S.write_records st') else st'
termination_by (st.w_src.flatten.length, (S.pending st.session).length)
decreasing_by
  obtain ⟨a, -, hflat, hsame⟩ := (S.fed st.w_src st).taken
  obtain ⟨hnil, heq⟩ := S.write_records_spec (S.write_pages st.w_src st)
  have hne := (S.wants_write_iff _).1 ‹_›
  rw [hnil, heq, Prod.lex_def, ← hflat, length_append]
  rcases eq_or_ne a [] with rfl | ha
  · exact .inr ⟨(Nat.zero_add _).symm, length_pos_iff.2 (hsame rfl ▸ hne)⟩
  · exact .inl (Nat.lt_add_of_pos_left (length_pos_iff.2 ha))

def start (s : σ) (src : List Data) (dst : Data) : Stream σ :=
  { session := s, w_src := src, w_dst := dst, accepted := [], records := S.pending s }

/-- Nothing is lost, and what is left is refused by a session with nothing to write. -/
structure Processed (src : List Data) (dst : Data) (st : Stream σ) : Prop where
  plaintext : st.accepted ++ st.w_src.flatten = src.flatten
  written : st.w_dst = dst ++ st.records
  rest : st.w_src.flatten ≠ [] → (∀ page, (S.write st.session page).1 = 0) ∧ S.wants_write st.session = false

/-- A session that takes a part of a page has something to write then, or is full. -/
def Full : Prop :=
  ∀ s page, (S.write s page).1 < page.length →
    S.pending (S.write s page).2 ≠ [] ∨ ∀ page', (S.write (S.write s page).2 page').1 = 0

structure Inv (src dst : Data) (st : Stream σ) : Prop where
  plaintext : st.accepted ++ st.w_src.flatten = src
  written : st.w_dst ++ S.pending st.session = dst ++ st.records

variable {S} {src dst : Data} {st : Stream σ}

lemma Inv.write_pages (h : S.Inv src dst st) : S.Inv src dst (S.write_pages st.w_src st) := by
  obtain ⟨⟨a, ha, hflat, -⟩, ⟨r, hr, hp⟩, hdst, -⟩ := S.fed st.w_src st
  exact ⟨by rw [ha, append_assoc, hflat, h.plaintext], by rw [hdst, hp, ← append_assoc, h.written, hr, append_assoc]⟩

lemma Inv.write_records (h : S.Inv src dst st) : S.Inv src dst (S.write_records st) := by
  obtain ⟨hnil, heq⟩ := S.write_records_spec st
  exact ⟨by rw [heq, h.plaintext], by rw [hnil, heq, append_nil, h.written]⟩

lemma Inv.process (h : S.Inv src dst st) :
    S.Inv src dst (S.process_write_buf st) ∧ S.wants_write (S.process_write_buf st).session = false ∧
      ((S.process_write_buf st).w_src.flatten ≠ [] → S.Short (S.process_write_buf st).session) := by
  fun_induction process_write_buf S st with
  | case1 st st' hw ih => exact ih h.write_pages.write_records
  | case2 st st' hw => exact ⟨h.write_pages, Bool.eq_false_iff.2 hw, (S.fed st.w_src st).short⟩

variable (S)

/-- A session is served in all states and for all contents just when it does not stop in the middle of a page for no reason. -/
theorem process_write_buf_iff : S.Full ↔ ∀ s src dst, S.Processed src dst (S.process_write_buf (S.start s src dst)) := by
  constructor
  · intro hfull s src dst
    obtain ⟨h, hw, hshort⟩ := (show S.Inv src.flatten dst (S.start s src dst) from ⟨rfl, rfl⟩).process
    have hp : S.pending (S.process_write_buf (S.start s src dst)).session = [] := by
      by_contra hne
      exact Bool.eq_false_iff.1 hw ((S.wants_write_iff _).2 hne)
    refine ⟨h.plaintext, by rw [← h.written, hp, append_nil], fun hne => ⟨?_, hw⟩⟩
    obtain ⟨s', page, hlt, heq⟩ := hshort hne
    rw [heq] at hp ⊢
    exact (hfull s' page hlt).resolve_left fun hne => hne hp
  · intro hall s page hlt
    by_contra! hnot
    obtain ⟨hp, page', htakes⟩ := hnot
    have hne : page.drop (S.write s page).1 ≠ [] := fun h => Nat.not_le_of_lt hlt (drop_eq_nil_iff.1 h)
    have hrest := (hall s [page] []).rest
    rw [process_write_buf] at hrest
    simp only [start, Session.write_pages, if_neg hne, if_neg fun hw => (S.wants_write_iff _).1 hw hp] at hrest
    exact htakes ((hrest (by simpa using hne)).1 page')

/-- It has room for `limit` bytes of records, which it writes all together. -/
def limited (limit : Nat) : Session Data where
  write s page := (min (limit - s.length) page.length, s ++ page.take (limit - s.length))
  wants_write s := !s.isEmpty
  write_tls s := (s, [])
  pending s := s
  write_le _ _ := Nat.min_le_right ..
  pending_write _ _ := prefix_append ..
  pending_refused s page h := by
    rw [take_eq_nil_iff.2 ((Nat.min_eq_zero_iff.1 h).imp_right eq_nil_of_length_eq_zero), append_nil]
  wants_write_iff s := by cases s <;> simp
  write_tls_append := append_nil
  write_tls_ne_nil s h := by
    rintro rfl
    cases h

lemma full_limited (limit : Nat) : (limited limit).Full := by
  intro s page hlt
  rcases eq_or_ne (s ++ page.take (limit - s.length)) [] with hnil | hne
  · obtain ⟨rfl, htake⟩ := append_eq_nil_iff.1 hnil
    have hlimit : limit = 0 := (take_eq_nil_iff.1 htake).resolve_right fun hp => by simp [hp] at hlt
    exact .inr fun page' => by simp [limited, hlimit]
  · exact .inl hne

/-- It takes one byte of each write, and holds it. -/
def stingy : Session Unit where
  write s page := (min 1 page.length, s)
  wants_write _ := false
  write_tls s := ([], s)
  pending _ := []
  write_le _ _ := Nat.min_le_right ..
  pending_write _ _ := prefix_rfl
  pending_refused _ _ _ := rfl
  wants_write_iff _ := by decide
  write_tls_append _ := rfl
  write_tls_ne_nil _ := nofun

/-- The second byte is left, though it would be taken. -/
theorem short_write_left : (stingy.process_write_buf (stingy.start () [[1, 2]] [])).w_src = [[2]] ∧ (stingy.write () [2]).1 = 1 := by
  rw [process_write_buf]
  decide

end Session

end Geario.Tls
