import HostRotation.Proofs.Selection.Positions

namespace HostRotation

theorem mapM_eq_some_map {α β : Type} {f : α → Option β} {g : α → β} {l : List α}
    (h : ∀ x ∈ l, f x = some (g x)) : l.mapM f = some (l.map g) := by
  induction l with
  | nil => rfl
  | cons x l ih =>
    have hx := h x List.mem_cons_self
    have hl := ih fun y hy => h y (List.mem_cons_of_mem x hy)
    simp [List.mapM_cons, hx, hl]

namespace Word

-- Operations on 64-bit words. A result that has no word, or a division by zero, is a fault.

def add? (a b : UInt64) : Option UInt64 :=
  if a.toNat + b.toNat < 2 ^ 64 then some (a + b) else none

def mul? (a b : UInt64) : Option UInt64 :=
  if a.toNat * b.toNat < 2 ^ 64 then some (a * b) else none

def mod? (a b : UInt64) : Option UInt64 :=
  if b = 0 then none else some (a % b)

def narrow (bits : Nat) (a : UInt64) : Nat :=
  (a.toBitVec.setWidth bits).toNat

variable {a b : UInt64}

theorem add?_eq (h : a.toNat + b.toNat < 2 ^ 64) :
    ∃ s, add? a b = some s ∧ s.toNat = a.toNat + b.toNat :=
  ⟨a + b, if_pos h, by rw [UInt64.toNat_add, Nat.mod_eq_of_lt h]⟩

theorem mul?_eq (h : a.toNat * b.toNat < 2 ^ 64) :
    ∃ s, mul? a b = some s ∧ s.toNat = a.toNat * b.toNat :=
  ⟨a * b, if_pos h, by rw [UInt64.toNat_mul, Nat.mod_eq_of_lt h]⟩

theorem mod?_eq (h : 0 < b.toNat) : ∃ s, mod? a b = some s ∧ s.toNat = a.toNat % b.toNat := by
  have hb : b ≠ 0 := by
    rintro rfl
    exact Nat.lt_irrefl 0 h
  exact ⟨a % b, if_neg hb, UInt64.toNat_mod a b⟩

theorem narrow_eq {bits : Nat} (h : a.toNat < 2 ^ bits) : narrow bits a = a.toNat := by
  rw [narrow, BitVec.toNat_setWidth]
  exact Nat.mod_eq_of_lt h

end Word

namespace Config

/-- The stop at an offset from the first position. The host list is indexed by so many bits; a
position that it does not have is a fault. -/
def wordStop? (c : Config) (bits : Nat) (length first offset : UInt64) : Option Stop := do
  let sum ← Word.add? first offset
  let position ← Word.mod? sum length
  let index := Word.narrow bits position
  let host ← c.hosts[index]?
  return { index, host }

def wordStops? (c : Config) (bits : Nat) (cursor : UInt64) : Option (List Stop) := do
  let length := UInt64.ofNat c.hosts.length
  let first ← Word.mod? cursor length
  (List.range length.toNat).mapM fun offset => c.wordStop? bits length first (.ofNat offset)

theorem wordStop?_eq {c : Config} {bits : Nat} {cursor length first : UInt64} {offset : Nat}
    (hl : length.toNat = c.hosts.length) (hf : first.toNat = cursor.toNat % c.hosts.length)
    (hn : c.hosts.length ≤ 2 ^ 63) (hb : c.hosts.length ≤ 2 ^ bits)
    (ho : offset < c.hosts.length) :
    c.wordStop? bits length first (.ofNat offset) = some (c.stop cursor offset) := by
  have hpos := c.length_hosts_pos
  have hfirst := Nat.mod_lt cursor.toNat hpos
  have hoffset : (UInt64.ofNat offset).toNat = offset :=
    UInt64.toNat_ofNat_of_lt' (show offset < 2 ^ 64 by omega)
  -- the two summands are below the number of hosts, which leaves room for their sum
  obtain ⟨sum, hadd, hsum⟩ := Word.add?_eq (a := first) (b := .ofNat offset) (by omega)
  obtain ⟨position, hmod, hposition⟩ := Word.mod?_eq (a := sum) (b := length) (by omega)
  have hp : position.toNat = c.position cursor offset := by
    rw [hposition, hsum, hf, hoffset, hl]
    rfl
  have hlt := c.position_lt cursor offset
  have hindex : Word.narrow bits position = c.position cursor offset := by
    rw [Word.narrow_eq (by omega), hp]
  have hhost : c.hosts[c.position cursor offset]? = some (c.stop cursor offset).host :=
    List.getElem?_eq_getElem hlt
  simp only [wordStop?, hadd, hmod, hindex, hhost, Option.bind_eq_bind, Option.bind_some]
  rfl

theorem wordStops?_eq {c : Config} {bits : Nat} (hn : c.hosts.length ≤ 2 ^ 63)
    (hb : c.hosts.length ≤ 2 ^ bits) (cursor : UInt64) :
    c.wordStops? bits cursor = some (c.stops cursor) := by
  have hl : (UInt64.ofNat c.hosts.length).toNat = c.hosts.length :=
    UInt64.toNat_ofNat_of_lt' (show c.hosts.length < 2 ^ 64 by omega)
  have hpos := c.length_hosts_pos
  obtain ⟨first, hmod, hfirst⟩ :=
    Word.mod?_eq (a := cursor) (b := .ofNat c.hosts.length) (by omega)
  rw [hl] at hfirst
  have hstops : (List.range c.hosts.length).mapM
      (fun offset => c.wordStop? bits (.ofNat c.hosts.length) first (.ofNat offset)) =
        some ((List.range c.hosts.length).map (c.stop cursor)) := by
    apply mapM_eq_some_map
    intro offset ho
    exact wordStop?_eq hl hfirst hn hb (List.mem_range.1 ho)
  simp only [wordStops?, hmod, hl, Option.bind_eq_bind, Option.bind_some, hstops,
    stops_eq_map_range]

end Config

structure WordTime where
  seconds : UInt64
  nanos : UInt32

namespace WordTime

def ofMillis (ms : UInt64) : WordTime :=
  ⟨ms / 1000, (ms % 1000).toUInt32 * 1000000⟩

/-- Twice a time; a fault when its seconds do not fit into 64 bits. -/
def twice? (t : WordTime) : Option WordTime := do
  let nanos := t.nanos.toUInt64 * 2
  let seconds ← Word.mul? t.seconds 2
  let seconds ← Word.add? seconds (nanos / 1000000000)
  return ⟨seconds, (nanos % 1000000000).toUInt32⟩

def span (t : WordTime) : Timespan :=
  .ofSeconds t.seconds.toNat t.nanos.toNat

theorem toNat_nanos_ofMillis (ms : UInt64) :
    (ofMillis ms).nanos.toNat = ms.toNat % 1000 * 1000000 := by
  have h := Nat.mod_lt ms.toNat (show 0 < 1000 by decide)
  have h1000 : (1000 : UInt64).toNat = 1000 := rfl
  simp only [ofMillis, UInt32.toNat_mul, UInt64.toNat_toUInt32, UInt64.toNat_mod, h1000,
    UInt32.reduceToNat]
  omega

theorem toNat_seconds_ofMillis (ms : UInt64) : (ofMillis ms).seconds.toNat = ms.toNat / 1000 :=
  UInt64.toNat_div ms 1000

theorem span_ofMillis (ms : UInt64) : (ofMillis ms).span = .ofMillis ms.toNat := by
  simp only [span, toNat_nanos_ofMillis, toNat_seconds_ofMillis, Timespan.ofSeconds,
    Timespan.ofMillis, Timespan.mk.injEq]
  omega

theorem twice?_eq {t : WordTime} (hs : t.seconds.toNat < 2 ^ 62) (hn : t.nanos.toNat < 1000000000) :
    ∃ u, t.twice? = some u ∧ u.nanos.toNat < 1000000000 ∧ u.span = t.span.twice := by
  have h2 : (2 : UInt64).toNat = 2 := rfl
  have hbillion : (1000000000 : UInt64).toNat = 1000000000 := rfl
  have htwice : (t.nanos.toUInt64 * 2).toNat = t.nanos.toNat * 2 := by
    rw [UInt64.toNat_mul, UInt32.toNat_toUInt64, h2]
    omega
  have hcarry : (t.nanos.toUInt64 * 2 / 1000000000).toNat = t.nanos.toNat * 2 / 1000000000 := by
    rw [UInt64.toNat_div, htwice, hbillion]
  have hnanos : (t.nanos.toUInt64 * 2 % 1000000000).toUInt32.toNat =
      t.nanos.toNat * 2 % 1000000000 := by
    rw [UInt64.toNat_toUInt32, UInt64.toNat_mod, htwice, hbillion]
    omega
  obtain ⟨doubled, hmul, hdoubled⟩ := Word.mul?_eq (a := t.seconds) (b := 2) (by rw [h2]; omega)
  rw [h2] at hdoubled
  obtain ⟨seconds, hadd, hseconds⟩ :=
    Word.add?_eq (a := doubled) (b := t.nanos.toUInt64 * 2 / 1000000000) (by omega)
  refine ⟨⟨seconds, (t.nanos.toUInt64 * 2 % 1000000000).toUInt32⟩, ?_, ?_, ?_⟩
  · simp only [twice?, hmul, hadd, Option.bind_eq_bind, Option.bind_some]
    rfl
  · rw [hnanos]
    omega
  · simp only [span, hnanos, hseconds, hdoubled, hcarry, Timespan.ofSeconds, Timespan.twice,
      Timespan.mk.injEq]
    omega

theorem twice?_ofMillis (ms : UInt64) :
    ∃ t, (ofMillis ms).twice? = some t ∧ t.nanos.toNat < 1000000000 ∧
      t.span = (Timespan.ofMillis ms.toNat).twice := by
  have hs := toNat_seconds_ofMillis ms
  have hn := toNat_nanos_ofMillis ms
  have hms := ms.toNat_lt
  rw [← span_ofMillis]
  exact twice?_eq (by omega) (by omega)

end WordTime

namespace Config

/-- Neither the walk over the hosts nor the time limit of an external program ever leaves its words,
whatever the cursor value and the settings are. -/
theorem words_never_fault (c : Config) {bits : Nat} (hn : c.hosts.length ≤ 2 ^ 63)
    (hb : c.hosts.length ≤ 2 ^ bits) (cursor : UInt64) :
    c.wordStops? bits cursor = some (c.stops cursor) ∧
      ∃ t, (WordTime.ofMillis c.timeout).twice? = some t ∧ t.nanos.toNat < 1000000000 ∧
        t.span = PingProbe.runLimit c.checkTime :=
  ⟨wordStops?_eq hn hb cursor, WordTime.twice?_ofMillis c.timeout⟩

def patient : Config :=
  { twoHosts with timeout := 18446744073709551615, timeout_pos := by decide }

theorem words_never_fault_patient :
    patient.hosts.length ≤ 2 ^ 63 ∧ patient.hosts.length ≤ 2 ^ 64 ∧
      patient.wordStops? 64 18446744073709551615 = some [⟨1, "b"⟩, ⟨0, "a"⟩] ∧
      ∃ t, (WordTime.ofMillis 18446744073709551615).twice? = some t ∧
        t.span = ⟨36893488147419103230000000⟩ := by
  have hn : patient.hosts.length ≤ 2 ^ 63 := by decide
  have hb : patient.hosts.length ≤ 2 ^ 64 := by decide
  obtain ⟨hstops, t, ht, -, hspan⟩ := patient.words_never_fault hn hb 18446744073709551615
  exact ⟨hn, hb, hstops, t, ht, hspan⟩

end Config
end HostRotation
