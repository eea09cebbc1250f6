/-
  Ssproxy.Codec

  The parser against the encoders, in both directions.

  - `*_sat`: what a parser step accepts is the encoding of what it returns,
    at the front of the unread bytes.  No step panics.
  - `*_of_rest`: in front of an encoding a parser step returns what was
    encoded and stops right behind it.
-/

import Ssproxy.Proto

namespace Ssproxy

open Lib Wire

-- ============================================================================
-- Encodings are unambiguous
-- ============================================================================

namespace Wire

/-- The length field of a string that fits is its length. -/
theorem toNat_length {b : Bytes} (h : b.length < 2 ^ 32) :
    (UInt32.ofNat b.length).toNat = b.length := by
  rw [UInt32.toNat_ofNat', Nat.mod_eq_of_lt h]

/-- Two strings with equal encodings in front of anything are equal. -/
theorem putBytes_append_inj {a b r r' : Bytes} (ha : a.length < 2 ^ 32) (hb : b.length < 2 ^ 32)
    (h : putBytes a ++ r = putBytes b ++ r') : a = b ∧ r = r' := by
  simp only [putBytes, putU32, List.append_assoc] at h
  obtain ⟨hlen, h⟩ := List.append_inj h rfl
  have hnat : a.length = b.length := by
    rw [← toNat_length ha, ← toNat_length hb, beBytes_injective hlen]
  exact List.append_inj h hnat

end Wire

-- ============================================================================
-- What is accepted is well formed
-- ============================================================================

namespace Parser

theorem u8_sat (p : Parser) :
    (u8 p).Sat (fun v p' => p.rest = v :: p'.rest) (fun _ _ => True) := by
  unfold u8
  simp only [Proc.bind_apply, Proc.get_apply, Outcome.bind_ok, Proc.ite_apply]
  split
  · trivial
  · rename_i h
    have hlt : p.off < p.buf.length := Nat.lt_of_not_le h
    simp only [Proc.bind_apply, Proc.index_of_lt hlt, Outcome.bind_ok, Proc.modify_apply,
      Proc.pure_apply, Outcome.sat_ok, rest]
    exact List.drop_eq_getElem_cons hlt

theorem bool_sat (p : Parser) :
    (bool p).Sat (fun v p' => ∃ b, p.rest = b :: p'.rest ∧ v = (b != 0)) (fun _ _ => True) := by
  unfold bool
  exact (u8_sat p).bind fun b p' h => ⟨b, h, rfl⟩

/-- Four bytes are the encoding of the integer they decode to. -/
theorem take_four {xs : Bytes} (h : 4 ≤ xs.length) :
    ∃ b0 b1 b2 b3, xs.take 4 = [b0, b1, b2, b3] := by
  match xs, h with
  | b0 :: b1 :: b2 :: b3 :: _, _ => exact ⟨b0, b1, b2, b3, rfl⟩

theorem u32_sat (p : Parser) :
    (u32 p).Sat (fun v p' => p.rest = putU32 v ++ p'.rest) (fun _ _ => True) := by
  unfold u32
  simp only [Proc.bind_apply, Proc.get_apply, Outcome.bind_ok, Proc.ite_apply]
  split
  · trivial
  · rename_i h
    have hle : p.off + 4 ≤ p.buf.length := Nat.le_of_not_lt h
    have hrest : 4 ≤ p.rest.length := by
      simp only [rest, List.length_drop]
      omega
    obtain ⟨b0, b1, b2, b3, hb⟩ := take_four hrest
    have hslice : (p.buf.drop p.off).take (p.off + 4 - p.off) = [b0, b1, b2, b3] := by
      rw [Nat.add_sub_cancel_left]
      exact hb
    rw [Proc.slice_of_le (Nat.le_add_right _ _) hle, hslice]
    simp only [Outcome.bind_ok, Proc.bind_apply, Proc.modify_apply, Proc.pure_apply,
      Outcome.sat_ok, rest, putU32, beBytes_ofBe]
    rw [← hb, ← List.drop_drop]
    exact (List.take_append_drop 4 _).symm

theorem takeOr_sat (n : Nat) (msg : String) (p : Parser) :
    (takeOr n msg p).Sat (fun s p' => s.length = n ∧ p.rest = s ++ p'.rest) (fun _ _ => True) := by
  unfold takeOr
  simp only [Proc.bind_apply, Proc.get_apply, Outcome.bind_ok, Proc.ite_apply]
  split
  · trivial
  · rename_i h
    have hle : p.off + n ≤ p.buf.length := Nat.le_of_not_lt h
    rw [Proc.slice_of_le (Nat.le_add_right _ _) hle, Nat.add_sub_cancel_left]
    simp only [Outcome.bind_ok, Proc.bind_apply, Proc.modify_apply, Proc.pure_apply,
      Outcome.sat_ok, rest]
    refine ⟨?_, ?_⟩
    · rw [List.length_take, List.length_drop]
      omega
    · rw [← List.drop_drop]
      exact (List.take_append_drop n _).symm

theorem bytes_sat (p : Parser) :
    (bytes p).Sat (fun b p' => b.length < 2 ^ 32 ∧ p.rest = putBytes b ++ p'.rest)
      (fun _ _ => True) := by
  unfold bytes
  refine (u32_sat p).bind fun n p1 h1 => (takeOr_sat n.toNat _ p1).mono ?_ fun _ _ h => h
  rintro b p2 ⟨hlen, h2⟩
  refine ⟨hlen ▸ n.toNat_lt, ?_⟩
  rw [h1, h2, putBytes, hlen, UInt32.ofNat_toNat, List.append_assoc]

theorem str_sat (p : Parser) :
    (str p).Sat (fun s p' => (strBytes s).length < 2 ^ 32 ∧ p.rest = putStr s ++ p'.rest)
      (fun _ _ => True) := by
  unfold str
  refine (bytes_sat p).bind fun b p' h => ?_
  cases hs : fromUtf8 b with
  | none => trivial
  | some s =>
    have hb := strBytes_of_fromUtf8 hs
    simp only [Proc.okOr_some, Outcome.sat_ok, putStr, hb]
    exact h

theorem namelist_sat (p : Parser) :
    (namelist p).Sat
      (fun names p' => ∃ s, (strBytes s).length < 2 ^ 32 ∧ p.rest = putStr s ++ p'.rest ∧
        names = splitNamelist s)
      (fun _ _ => True) := by
  unfold namelist
  exact (str_sat p).bind fun s p' h => ⟨s, h.1, h.2, rfl⟩

-- ============================================================================
-- What is well formed is accepted
-- ============================================================================

/-- In front of `enc` the step `m` returns `v` and stops right behind it. -/
def Reads {α : Type} (m : Proc Parser Error α) (enc : Bytes) (v : α) : Prop :=
  ∀ (p : Parser) (r : Bytes), p.rest = enc ++ r → ∃ p', m p = .ok v p' ∧ p'.rest = r

/-- The parser behind the first `n` unread bytes. -/
def skip (p : Parser) (n : Nat) : Parser := { p with off := p.off + n }

theorem rest_skip {p : Parser} {a r : Bytes} (h : p.rest = a ++ r) :
    (p.skip a.length).rest = r := by
  simp only [rest, skip] at h ⊢
  rw [← List.drop_drop, h, List.drop_left]

theorem off_le_of_rest {p : Parser} {a r : Bytes} (h : p.rest = a ++ r) (ha : a ≠ []) :
    p.off + a.length ≤ p.buf.length := by
  have hlen := congrArg List.length h
  have hpos := List.length_pos_iff.mpr ha
  simp only [rest, List.length_drop, List.length_append] at hlen
  omega

@[simp] theorem rest_new (b : Bytes) : (new b).rest = b := rfl

theorem reads_pure {α : Type} (v : α) : Reads (pure v) [] v :=
  fun p _ h => ⟨p, rfl, h⟩

/-- In front of two encodings: one step after the other. -/
theorem Reads.bind {α β : Type} {m : Proc Parser Error α} {f : α → Proc Parser Error β}
    {enc enc' : Bytes} {v : α} {w : β} (hm : Reads m enc v) (hf : Reads (f v) enc' w) :
    Reads (m >>= f) (enc ++ enc') w := by
  intro p r h
  rw [List.append_assoc] at h
  obtain ⟨p1, hp1, h1⟩ := hm p _ h
  obtain ⟨p2, hp2, h2⟩ := hf p1 r h1
  refine ⟨p2, ?_, h2⟩
  rw [Proc.bind_of_ok hp1]
  exact hp2

/-- A step that reads nothing. -/
theorem Reads.of_static {α β : Type} {m : Proc Parser Error α} {f : α → Proc Parser Error β}
    {enc : Bytes} {v : α} {w : β} (hm : ∀ p, m p = .ok v p) (hf : Reads (f v) enc w) :
    Reads (m >>= f) enc w := by
  intro p r h
  rw [Proc.bind_of_ok (hm p)]
  exact hf p r h

theorem reads_u8 (v : UInt8) : Reads u8 [v] v := by
  intro p r h
  have hlt : p.off + 1 ≤ p.buf.length := off_le_of_rest h (by simp)
  have hv : p.buf[p.off] = v := by
    have hcons := List.drop_eq_getElem_cons (show p.off < p.buf.length from hlt)
    rw [rest, hcons] at h
    exact (List.cons.inj h).1
  refine ⟨p.skip 1, ?_, rest_skip h⟩
  unfold u8
  simp [Proc.index_of_lt (show p.off < p.buf.length from hlt), skip, hv,
    Nat.not_le.mpr (show p.off < p.buf.length from hlt)]

theorem reads_bool (b : Bool) : Reads bool (putBool b) b := by
  cases b with
  | false => exact (reads_u8 0).bind (reads_pure _)
  | true => exact (reads_u8 1).bind (reads_pure _)

/-- `take` of what is there, behind a position inside the buffer. -/
theorem takeOr_of_rest {p : Parser} {a r : Bytes} (msg : String) (h : p.rest = a ++ r)
    (hle : p.off + a.length ≤ p.buf.length) :
    takeOr a.length msg p = .ok a (p.skip a.length) := by
  have hs : (p.buf.drop p.off).take a.length = a := by
    rw [← rest, h, List.take_left]
  unfold takeOr
  simp [Nat.not_lt.mpr hle, Proc.slice_of_le (Nat.le_add_right _ _) hle, hs, skip]

theorem reads_take {n : Nat} (b : Block n) (hn : 0 < n) : Reads (take n) b.val b.val := by
  intro p r h
  have hne : b.val ≠ [] := List.length_pos_iff.mp (by rw [b.property]; exact hn)
  have htake := takeOr_of_rest "truncated take" h (off_le_of_rest h hne)
  refine ⟨p.skip b.val.length, ?_, rest_skip h⟩
  rw [b.property] at htake ⊢
  exact htake

theorem u32_of_rest {p : Parser} {v : UInt32} {r : Bytes} (h : p.rest = putU32 v ++ r) :
    u32 p = .ok v (p.skip 4) := by
  have hle : p.off + 4 ≤ p.buf.length := off_le_of_rest h (by simp [putU32, beBytes])
  have hs : (p.buf.drop p.off).take (p.off + 4 - p.off) = putU32 v := by
    rw [← rest, h, Nat.add_sub_cancel_left]
    exact List.take_left' (length_putU32 v)
  unfold u32
  simp only [Proc.bind_apply, Proc.get_apply, Outcome.bind_ok, Proc.ite_apply,
    if_neg (Nat.not_lt.mpr hle), Proc.slice_of_le (Nat.le_add_right _ _) hle, hs, putU32,
    beBytes, Proc.modify_apply, Proc.pure_apply, ofBe_beBytes, skip]

theorem reads_u32 (v : UInt32) : Reads u32 (putU32 v) v :=
  fun p _ h => ⟨p.skip 4, u32_of_rest h, rest_skip h⟩

/-- A length field and as many bytes; there may be none. -/
theorem reads_bytes {b : Bytes} (hlen : b.length < 2 ^ 32) : Reads bytes (putBytes b) b := by
  intro p r h
  have hle : p.off + (putBytes b).length ≤ p.buf.length :=
    off_le_of_rest h (List.length_pos_iff.mp (by rw [length_putBytes]; omega))
  rw [length_putBytes] at hle
  rw [putBytes, List.append_assoc] at h
  have h1 : (p.skip 4).rest = b ++ r := rest_skip h
  have htake := takeOr_of_rest "truncated string" h1
    (show p.off + 4 + b.length ≤ p.buf.length by omega)
  refine ⟨(p.skip 4).skip b.length, ?_, rest_skip h1⟩
  unfold bytes
  rw [Proc.bind_of_ok (u32_of_rest h), toNat_length hlen]
  exact htake

theorem reads_str {s : String} (hlen : (strBytes s).length < 2 ^ 32) :
    Reads str (putStr s) s := by
  intro p r h
  obtain ⟨p', hp, h'⟩ := reads_bytes hlen p r h
  refine ⟨p', ?_, h'⟩
  unfold str
  rw [Proc.bind_of_ok hp, fromUtf8_strBytes]
  rfl

/-- A parser call in front of an encoding. -/
theorem call_reads {σ α : Type} {m : Proc Parser Error α} {enc r : Bytes} {v : α} {p : Parser}
    (h : Reads m enc v) (hp : p.rest = enc ++ r) (s : σ) :
    ∃ p', (Proc.call m p : Proc σ Error (α × Parser)) s = .ok (v, p') s ∧ p'.rest = r := by
  obtain ⟨p', hm, hr⟩ := h p r hp
  refine ⟨p', ?_, hr⟩
  unfold Proc.call
  rw [hm]

/-- One that falls back on a default. -/
theorem callOr_reads {σ α : Type} {m : Proc Parser Error α} {enc r : Bytes} {v d : α} {p : Parser}
    (h : Reads m enc v) (hp : p.rest = enc ++ r) (s : σ) :
    ∃ p', (Proc.callOr d m p : Proc σ Error (α × Parser)) s = .ok (v, p') s ∧ p'.rest = r := by
  obtain ⟨p', hm, hr⟩ := h p r hp
  refine ⟨p', ?_, hr⟩
  unfold Proc.callOr
  rw [hm]

/-- The message number in front of every message. -/
theorem call_code {σ : Type} (m : MsgType) (r : Bytes) (s : σ) :
    ∃ p', (Proc.call u8 (.new (m.code :: r)) : Proc σ Error (UInt8 × Parser)) s
      = .ok (m.code, p') s ∧ p'.rest = r :=
  call_reads (reads_u8 m.code) rfl s

end Parser

-- ============================================================================
-- Name lists
-- ============================================================================

/-- A list that survives in a name-list: no empty name, no comma in a name. -/
structure IsNamelist (names : List String) : Prop where
  nonempty : ∀ n ∈ names, n ≠ ""
  comma : ∀ n ∈ names, ',' ∉ n.toList
  short : (strBytes (",".intercalate names)).length < 2 ^ 32

/-- Splitting undoes joining; the empty list is the empty string. -/
theorem IsNamelist.split {names : List String} (h : IsNamelist names) :
    Parser.splitNamelist (",".intercalate names) = names := by
  have hchars : (",".intercalate names).toList = [','].intercalate (names.map String.toList) :=
    String.toList_intercalate
  cases names with
  | nil => simp [Parser.splitNamelist]
  | cons n ns =>
    have hn : n.toList ≠ [] := fun hnil => h.nonempty n List.mem_cons_self (by simpa using hnil)
    have hne : ",".intercalate (n :: ns) ≠ "" := by
      intro hempty
      rw [hempty] at hchars
      cases ns with
      | nil => exact hn (by simpa using hchars.symm)
      | cons m ms => simp [List.intercalate_cons_cons] at hchars
    have hsplit : ([','].intercalate ((n :: ns).map String.toList)).splitOn ','
        = (n :: ns).map String.toList := by
      apply List.splitOn_intercalate
      · intro cs hcs
        obtain ⟨m, hm, rfl⟩ := List.mem_map.mp hcs
        exact h.comma m hm
      · simp
    rw [Parser.splitNamelist, if_neg hne, hchars, hsplit, List.map_map]
    simp

theorem IsNamelist.reads {names : List String} (h : IsNamelist names) :
    Parser.Reads Parser.namelist (putNamelist names) names := by
  have hreads : Parser.Reads Parser.namelist (putNamelist names ++ [])
      (Parser.splitNamelist (",".intercalate names)) :=
    (Parser.reads_str h.short).bind (Parser.reads_pure _)
  rw [List.append_nil, h.split] at hreads
  exact hreads

-- ============================================================================
-- KEXINIT
-- ============================================================================

namespace KexInit

/-- What a parser step behind `n` name-lists and a flag has read. -/
def Listed (n : Nat) (p p' : Parser) : Prop :=
  ∃ (lists : List String) (b : UInt8), lists.length = n ∧
    (∀ s ∈ lists, (strBytes s).length < 2 ^ 32) ∧
    p.rest = lists.flatMap putStr ++ b :: p'.rest

theorem listed_namelist {α : Type} {n : Nat} {f : List String → Proc Parser Error α} {p : Parser}
    (hf : ∀ names p1, (f names p1).Sat (fun _ p' => Listed n p1 p') (fun _ _ => True)) :
    ((Parser.namelist >>= f) p).Sat (fun _ p' => Listed (n + 1) p p') (fun _ _ => True) := by
  refine (Parser.namelist_sat p).bind fun names p1 ⟨s, hs, hrest, _⟩ => ?_
  refine (hf names p1).mono (fun _ p' ⟨lists, b, hlen, hshort, hlists⟩ => ?_) fun _ _ h => h
  refine ⟨s :: lists, b, by rw [List.length_cons, hlen], ?_, ?_⟩
  · intro t ht
    rcases List.mem_cons.mp ht with rfl | ht
    · exact hs
    · exact hshort t ht
  · rw [hrest, hlists, List.flatMap_cons, List.append_assoc]

/-- What `parse` accepts has a cookie, ten strings and a flag in front. -/
theorem parseBody_sat (payload : Bytes) (p : Parser) :
    (parseBody payload p).Sat
      (fun _ p' => ∃ (t : UInt8) (cookie : Bytes) (p1 : Parser), cookie.length = 16 ∧
        p.rest = t :: (cookie ++ p1.rest) ∧ Listed 10 p1 p')
      (fun _ _ => True) := by
  unfold parseBody
  refine (Parser.u8_sat p).bind fun t p1 ht => ?_
  rw [Proc.ite_apply]
  split
  · trivial
  refine (Parser.takeOr_sat 16 _ p1).bind fun cookie p2 h => ?_
  rw [Block.ofBytes?_of_length h.1, Proc.bind_of_ok (Proc.unwrap_some _ _)]
  refine Outcome.Sat.mono (Q := fun _ p' => Listed 10 p2 p') (E := fun _ _ => True) ?_
    (fun _ p' hp => ⟨t, cookie, p2, h.1, ht.trans (congrArg _ h.2), hp⟩) fun _ _ _ => trivial
  iterate 10 refine listed_namelist fun _ _ => ?_
  exact (Parser.bool_sat _).bind fun _ p3 ⟨b, hb, _⟩ => ⟨[], b, rfl, nofun, hb⟩

theorem parse_sat {σ : Type} (payload : Bytes) (s : σ) :
    (parse payload s).Sat
      (fun k s' => s = s' ∧ ∃ q, parseBody payload (.new payload) = .ok k q)
      (fun _ s' => s = s') := by
  have hsat := parseBody_sat payload (.new payload)
  unfold parse Proc.call
  rw [Proc.bind_apply]
  cases hp : parseBody payload (.new payload) with
  | ok k q => exact ⟨rfl, q, rfl⟩
  | err e q => rfl
  | panic => rw [hp] at hsat; exact hsat

-- ============================================================================
-- The round trip of KEXINIT
-- ============================================================================

/-- The name-lists of a KEXINIT, in their order on the wire. -/
def lists (k : KexInit) : List (List String) :=
  [k.kex, k.hostKey, k.encC2s, k.encS2c, k.macC2s, k.macS2c, k.compC2s, k.compS2c,
   k.langC2s, k.langS2c]

theorem raw_build (cookie : Block 16) (kex host ciphers macs : List String) :
    let k := build cookie kex host ciphers macs
    k.raw = MsgType.kexinit.code ::
      (cookie.val ++ ((k.lists.map (",".intercalate)).flatMap putStr ++ 0 :: putU32 0)) := by
  simp [build, lists, putNamelist, serverComp, putBool]

theorem putStrs_append_inj {ss ts : List String} {r r' : Bytes} (hlen : ss.length = ts.length)
    (hs : ∀ s ∈ ss, (strBytes s).length < 2 ^ 32) (ht : ∀ t ∈ ts, (strBytes t).length < 2 ^ 32)
    (h : ss.flatMap putStr ++ r = ts.flatMap putStr ++ r') : ss = ts ∧ r = r' := by
  induction ss generalizing ts with
  | nil =>
    obtain rfl := List.length_eq_zero_iff.mp hlen.symm
    exact ⟨rfl, h⟩
  | cons s ss ih =>
    cases ts with
    | nil => cases hlen
    | cons t ts =>
      simp only [List.flatMap_cons, putStr, List.append_assoc] at h
      obtain ⟨hst, h⟩ := putBytes_append_inj (hs s List.mem_cons_self) (ht t List.mem_cons_self) h
      obtain ⟨htail, hr⟩ := ih (Nat.succ.inj hlen) (fun u hu => hs u (List.mem_cons_of_mem _ hu))
        (fun u hu => ht u (List.mem_cons_of_mem _ hu)) h
      exact ⟨by rw [strBytes_injective hst, htail], hr⟩

variable {kex host ciphers macs : List String}

theorem isNamelist_lists (cookie : Block 16) (hk : IsNamelist kex) (hh : IsNamelist host)
    (hc : IsNamelist ciphers) (hm : IsNamelist macs) :
    ∀ names ∈ (build cookie kex host ciphers macs).lists, IsNamelist names := by
  have hnone : IsNamelist ["none"] := ⟨by decide, by decide, by decide⟩
  have hnil : IsNamelist [] := ⟨by decide, by decide, by decide⟩
  simp only [lists, build, List.forall_mem_cons, hk, hh, hc, hm, hnone, hnil, true_and]
  exact List.forall_mem_nil _

theorem reads_parseBody (cookie : Block 16) (hk : IsNamelist kex) (hh : IsNamelist host)
    (hc : IsNamelist ciphers) (hm : IsNamelist macs) (payload : Bytes) :
    Parser.Reads (parseBody payload)
      (MsgType.kexinit.code :: (cookie.val
        ++ (((build cookie kex host ciphers macs).lists.map (",".intercalate)).flatMap putStr
        ++ putBool false)))
      { build cookie kex host ciphers macs with raw := payload } := by
  have hall := isNamelist_lists cookie hk hh hc hm
  simp only [lists, build, List.forall_mem_cons] at hall
  obtain ⟨h1, h2, h3, h4, h5, h6, h7, h8, h9, h10, -⟩ := hall
  simp only [lists, build, List.map_cons, List.map_nil, List.flatMap_cons, List.flatMap_nil,
    List.append_nil, List.append_assoc]
  refine Parser.Reads.bind (Parser.reads_u8 _) ?_
  rw [if_neg (by decide)]
  refine Parser.Reads.bind (Parser.reads_take cookie (by decide)) ?_
  rw [Block.ofBytes?_of_length cookie.property]
  refine Parser.Reads.of_static (Proc.unwrap_some _) ?_
  refine h1.reads.bind (h2.reads.bind (h3.reads.bind (h4.reads.bind (h5.reads.bind
    (h6.reads.bind (h7.reads.bind (h8.reads.bind (h9.reads.bind (h10.reads.bind ?_)))))))))
  exact (Parser.reads_bool false).bind (Parser.reads_pure _)

/-- `parse` gives back what `build` returned, and no prefix that ends before
    the flag is accepted. -/
theorem parse_build (cookie : Block 16) (hk : IsNamelist kex) (hh : IsNamelist host)
    (hc : IsNamelist ciphers) (hm : IsNamelist macs) :
    (∀ {σ : Type} (s : σ), parse (build cookie kex host ciphers macs).raw s
      = .ok (build cookie kex host ciphers macs) s) ∧
    ∀ n, n + 5 ≤ (build cookie kex host ciphers macs).raw.length → ∀ {σ : Type} (s : σ),
      ∃ e, parse ((build cookie kex host ciphers macs).raw.take n) s = .err e s := by
  have hraw := raw_build cookie kex host ciphers macs
  have hall := isNamelist_lists cookie hk hh hc hm
  have hreads := reads_parseBody cookie hk hh hc hm
  generalize hbuilt : build cookie kex host ciphers macs = k at hraw hall hreads ⊢
  dsimp only at hraw
  refine ⟨fun s => ?_, fun n hn σ s => ?_⟩
  · obtain ⟨q, hq, -⟩ := hreads k.raw (.new k.raw) (putU32 0) (by
      rw [Parser.rest_new, hraw]
      simp [putBool])
    unfold parse Proc.call
    rw [Proc.bind_apply, hq]
    rfl
  · have hsat := parseBody_sat (k.raw.take n) (.new (k.raw.take n))
    unfold parse Proc.call
    rw [Proc.bind_apply]
    cases hp : parseBody (k.raw.take n) (.new (k.raw.take n)) with
    | err e q => exact ⟨e, rfl⟩
    | panic => rw [hp] at hsat; exact hsat.elim
    | ok k' q =>
      rw [hp] at hsat
      obtain ⟨t, ck, p1, hck, hrest, ss, b, hten, hshort, hlists⟩ := hsat
      rw [Parser.rest_new, hlists] at hrest
      -- the strings it read are the name-lists, so the flag is inside the prefix
      have hfull := (List.take_append_drop n k.raw).trans hraw
      rw [hrest] at hfull
      simp only [List.cons_append, List.append_assoc] at hfull
      obtain ⟨-, hfull⟩ := List.cons.inj hfull
      obtain ⟨-, hfull⟩ := List.append_inj hfull (by rw [hck, cookie.property])
      have hnames : ∀ t ∈ k.lists.map (",".intercalate), (strBytes t).length < 2 ^ 32 := by
        intro t ht
        obtain ⟨names, hmem, rfl⟩ := List.mem_map.mp ht
        exact (hall names hmem).short
      obtain ⟨-, hend⟩ := putStrs_append_inj (by rw [hten]; rfl) hshort hnames hfull
      have hlen := congrArg List.length hend
      simp only [List.length_append, List.length_cons, List.length_drop, length_putU32] at hlen
      omega

/-- Our own KEXINIT, as a server sends it. -/
theorem parse_build_server :
    (parse (build (.zero 16) serverKex serverHostKey serverCiphers serverMacs).raw ()
      = .ok (build (.zero 16) serverKex serverHostKey serverCiphers serverMacs) ()) :=
  (parse_build (.zero 16) ⟨by decide, by decide, by decide⟩ ⟨by decide, by decide, by decide⟩
    ⟨by decide, by decide, by decide⟩ ⟨by decide, by decide, by decide⟩).1 ()

end KexInit

end Ssproxy
