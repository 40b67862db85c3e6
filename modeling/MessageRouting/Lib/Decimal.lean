import Mathlib.Data.List.Induction
import Mathlib.Data.List.TakeWhile
import Mathlib.Tactic.Common
import Mathlib.Tactic.IntervalCases

/-!
Decimal numbers in byte strings, as the C and C++ libraries read and print them.

* `stoi`: the number at the front of a byte string, read as `strtol` in base
  ten reads it: white space is skipped, one sign is allowed, and the longest
  run of digits is the number. No digit is `invalidArgument`, a value outside
  `int` is `outOfRange`.
* `setw`: a number printed into a stream with a field width and the fill
  character `0`: the fill goes on the left, also in front of a minus sign, and
  a number that is too long is not cut.
* `pad`: the `w` low digits of a natural number. `setw_eq_pad` says that the
  stream prints exactly these when the number fits, and `stoi_pad` that they are
  read back as the number: the print/parse inverse of a fixed-width field.
* `Numeric`, `stoi_ok_iff`: which strings are read; `stoi_bounds`: how large the
  number can be; `stoi_append`: what follows a number is not read.
* `stoi_setw`: what is read back from a field, for every integer that fits it.
-/

namespace Decimal

/-! ### Reading -/

/-- `isspace` of the C locale. -/
def isSpace (b : UInt8) : Bool := b == 32 || (9 ≤ b && b ≤ 13)

/-- `isdigit`. -/
def isDigit (b : UInt8) : Bool := 48 ≤ b && b ≤ 57

/-- The value of a string of digits. -/
def digitsVal (ds : List UInt8) : ℕ := ds.foldl (fun n d => 10 * n + (d.toNat - 48)) 0

/-- The optional sign in front of a number, and what follows it. -/
def splitSign : List UInt8 → Bool × List UInt8
  | [] => (false, [])
  | c :: u => if c = 45 then (true, u) else if c = 43 then (false, u) else (false, c :: u)

/-- The exceptions of `stoi`. -/
inductive StoiError where
  | invalidArgument
  | outOfRange
  deriving DecidableEq, Repr

/-- The range check of `stoi` on the value `strtol` found. -/
def toInt (v : ℤ) : Except StoiError ℤ :=
  if v < -2147483648 ∨ 2147483647 < v then .error .outOfRange else .ok v

/-- The number at the front of a byte string. -/
def stoi (s : List UInt8) : Except StoiError ℤ :=
  let (neg, u) := splitSign (s.dropWhile isSpace)
  let ds := u.takeWhile isDigit
  if ds = [] then .error .invalidArgument
  else toInt (if neg then -(digitsVal ds : ℤ) else digitsVal ds)

lemma isDigit_iff (b : UInt8) : isDigit b = true ↔ 48 ≤ b.toNat ∧ b.toNat ≤ 57 := by
  simp [isDigit, UInt8.le_iff_toNat_le]

lemma isSpace_of_isDigit {b : UInt8} (h : isDigit b = true) : isSpace b = false := by
  rw [isDigit_iff] at h
  have h32 : b ≠ 32 := by rintro rfl; simp at h
  simp only [isSpace, Bool.or_eq_false_iff, beq_eq_false_iff_ne, ne_eq, h32, not_false_eq_true,
    true_and, Bool.and_eq_false_iff, decide_eq_false_iff_not, UInt8.le_iff_toNat_le]
  right
  show ¬ b.toNat ≤ 13
  omega

lemma splitSign_of_isDigit {b : UInt8} (h : isDigit b = true) (u : List UInt8) :
    splitSign (b :: u) = (false, b :: u) := by
  rw [isDigit_iff] at h
  have h45 : b ≠ 45 := by rintro rfl; simp at h
  have h43 : b ≠ 43 := by rintro rfl; simp at h
  simp [splitSign, h45, h43]

/-- A string of digits is read as its value, whatever follows it that is not a
digit. -/
lemma stoi_digits {ds rest : List UInt8} (hne : ds ≠ []) (hd : ∀ d ∈ ds, isDigit d = true)
    (hr : ∀ b ∈ rest.head?, isDigit b = false) (hv : digitsVal ds ≤ 2147483647) :
    stoi (ds ++ rest) = .ok (digitsVal ds) := by
  have htake : (ds ++ rest).takeWhile isDigit = ds := by
    rw [List.takeWhile_append_of_pos hd]
    cases rest with
    | nil => simp
    | cons b r => simp [hr b (by simp)]
  obtain ⟨c, cs, rfl⟩ := List.exists_cons_of_ne_nil hne
  have hc := hd c (by simp)
  have hdrop : (c :: cs ++ rest).dropWhile isSpace = c :: (cs ++ rest) := by
    rw [List.cons_append, List.dropWhile_cons, isSpace_of_isDigit hc]
    simp
  rw [List.cons_append] at htake
  simp only [stoi, hdrop, splitSign_of_isDigit hc, htake]
  simp only [reduceCtorEq, if_false, Bool.false_eq_true, toInt]
  rw [if_neg (by omega)]

lemma digitsVal_append (ds : List UInt8) (d : UInt8) :
    digitsVal (ds ++ [d]) = 10 * digitsVal ds + (d.toNat - 48) := by
  simp [digitsVal]

lemma digitsVal_lt {ds : List UInt8} (h : ∀ d ∈ ds, isDigit d = true) :
    digitsVal ds < 10 ^ ds.length := by
  induction ds using List.reverseRecOn with
  | nil => simp [digitsVal]
  | append_singleton ds d ih =>
      have hd := (isDigit_iff d).mp (h d (by simp))
      have hds := ih fun x hx => h x (List.mem_append_left _ hx)
      rw [digitsVal_append, List.length_append, List.length_singleton, pow_succ]
      omega

lemma length_splitSign_le (t : List UInt8) : (splitSign t).2.length ≤ t.length := by
  cases t with
  | nil => simp [splitSign]
  | cons c u =>
      rw [splitSign]
      split_ifs <;> simp

/-- The sign takes a byte of its own. -/
lemma length_splitSign_lt {t : List UInt8} (h : (splitSign t).1 = true) :
    (splitSign t).2.length < t.length := by
  cases t with
  | nil => simp [splitSign] at h
  | cons c u =>
      rw [splitSign] at h ⊢
      split_ifs at h ⊢ with h45
      simp

/-- The digits of the number at the front of a string. -/
def digitsOf (s : List UInt8) : List UInt8 := (splitSign (s.dropWhile isSpace)).2.takeWhile isDigit

/-- Whether a minus sign stands before them. -/
def negative (s : List UInt8) : Bool := (splitSign (s.dropWhile isSpace)).1

lemma stoi_eq (s : List UInt8) : stoi s =
    if digitsOf s = [] then .error .invalidArgument
    else toInt (if negative s then -(digitsVal (digitsOf s) : ℤ) else digitsVal (digitsOf s)) := rfl

lemma isDigit_of_mem_digitsOf {s : List UInt8} : ∀ d ∈ digitsOf s, isDigit d = true :=
  fun _ hd => List.mem_takeWhile_imp hd

/-- The digits and the sign stand in the string. -/
lemma length_digitsOf (s : List UInt8) :
    (digitsOf s).length + (negative s).toNat ≤ s.length := by
  set t := s.dropWhile isSpace with ht
  have htake : (digitsOf s).length ≤ (splitSign t).2.length :=
    (List.takeWhile_prefix isDigit).length_le
  have hdrop : t.length ≤ s.length := (List.dropWhile_suffix isSpace).length_le
  cases hneg : negative s with
  | true =>
      have hlt := length_splitSign_lt (t := t) hneg
      rw [Bool.toNat_true]
      omega
  | false =>
      have hle := length_splitSign_le t
      rw [Bool.toNat_false]
      omega

lemma toInt_eq_ok {v w : ℤ} (h : toInt v = .ok w) : w = v := by
  rw [toInt] at h
  split_ifs at h
  exact (Except.ok.inj h).symm

/-- A string of at most nine bytes is no number outside `int`. -/
lemma stoi_ne_outOfRange {s : List UInt8} (h : s.length ≤ 9) : stoi s ≠ .error .outOfRange := by
  have hlen := length_digitsOf s
  have hlt : digitsVal (digitsOf s) < 10 ^ 9 :=
    lt_of_lt_of_le (digitsVal_lt isDigit_of_mem_digitsOf)
      (Nat.pow_le_pow_right (by omega) (by omega))
  rw [stoi_eq, toInt]
  split_ifs <;> simp_all <;> omega

/-- A number is no longer than the string it is read from. -/
lemma stoi_bounds {s : List UInt8} {v : ℤ} (h : stoi s = .ok v) :
    -(10 : ℤ) ^ (s.length - 1) < v ∧ v < 10 ^ s.length := by
  rw [stoi_eq] at h
  split_ifs at h with hnil hneg
  · have hv := toInt_eq_ok h
    have hlen := length_digitsOf s
    rw [hneg, Bool.toNat_true] at hlen
    have hpow : 10 ^ (digitsOf s).length ≤ 10 ^ (s.length - 1) :=
      Nat.pow_le_pow_right (by omega) (by omega)
    have hlt : (digitsVal (digitsOf s) : ℤ) < 10 ^ (s.length - 1) := by
      exact_mod_cast (digitsVal_lt isDigit_of_mem_digitsOf).trans_le hpow
    have hpos : (0 : ℤ) < 10 ^ s.length := by positivity
    omega
  · have hv := toInt_eq_ok h
    have hlen : (digitsOf s).length ≤ s.length := by
      have := length_digitsOf s
      omega
    have hpow : 10 ^ (digitsOf s).length ≤ 10 ^ s.length := Nat.pow_le_pow_right (by omega) hlen
    have hlt : (digitsVal (digitsOf s) : ℤ) < 10 ^ s.length := by
      exact_mod_cast (digitsVal_lt isDigit_of_mem_digitsOf).trans_le hpow
    have hpos : (0 : ℤ) < 10 ^ (s.length - 1) := by positivity
    omega

/-- A number stands at the front of the string: white space, at most one sign, and a
digit. -/
def Numeric (s : List UInt8) : Prop :=
  ∃ sp sg d rest, s = sp ++ sg ++ d :: rest ∧ (∀ b ∈ sp, isSpace b = true) ∧
    (sg = [] ∨ sg = [43] ∨ sg = [45]) ∧ isDigit d = true

lemma splitSign_cases (t : List UInt8) :
    ∃ sg, t = sg ++ (splitSign t).2 ∧ (sg = [] ∨ sg = [43] ∨ sg = [45]) := by
  cases t with
  | nil => exact ⟨[], rfl, .inl rfl⟩
  | cons c u =>
      rw [splitSign]
      split_ifs with h45 h43
      · exact ⟨[45], by rw [h45]; rfl, .inr (.inr rfl)⟩
      · exact ⟨[43], by rw [h43]; rfl, .inr (.inl rfl)⟩
      · exact ⟨[], rfl, .inl rfl⟩

/-- The strings that are not refused are those with a number at the front. -/
lemma digitsOf_ne_nil_iff {s : List UInt8} : digitsOf s ≠ [] ↔ Numeric s := by
  set t := s.dropWhile isSpace with ht
  have hds : digitsOf s = (splitSign t).2.takeWhile isDigit := rfl
  constructor
  · intro hne
    obtain ⟨sg, hsg, hcases⟩ := splitSign_cases t
    obtain ⟨d, ds, hcons⟩ := List.exists_cons_of_ne_nil hne
    obtain ⟨rest, hrest⟩ : digitsOf s <+: (splitSign t).2 := List.takeWhile_prefix isDigit
    refine ⟨s.takeWhile isSpace, sg, d, ds ++ rest, ?_, fun b hb => List.mem_takeWhile_imp hb,
      hcases, isDigit_of_mem_digitsOf d (by rw [hcons]; exact List.mem_cons_self)⟩
    calc s = s.takeWhile isSpace ++ t := List.takeWhile_append_dropWhile.symm
      _ = s.takeWhile isSpace ++ (sg ++ (digitsOf s ++ rest)) := by rw [hrest, ← hsg]
      _ = s.takeWhile isSpace ++ sg ++ d :: (ds ++ rest) := by rw [hcons, List.append_assoc]; rfl
  · rintro ⟨sp, sg, d, rest, rfl, hsp, hsg, hd⟩
    have hdrop : ∀ b u, isSpace b = false → (sp ++ b :: u).dropWhile isSpace = b :: u := by
      intro b u hb
      rw [List.dropWhile_append_of_pos hsp, List.dropWhile_cons, hb]
      rfl
    have hsplit : (splitSign t).2 = d :: rest := by
      rw [ht, List.append_assoc]
      rcases hsg with rfl | rfl | rfl
      · rw [List.nil_append, hdrop _ _ (isSpace_of_isDigit hd), splitSign_of_isDigit hd]
      · rw [List.singleton_append, hdrop _ _ (by decide)]
        rfl
      · rw [List.singleton_append, hdrop _ _ (by decide)]
        rfl
    rw [hds, hsplit, List.takeWhile_cons, hd]
    simp

/-- A short string is read exactly when a number stands at its front. -/
lemma stoi_ok_iff {s : List UInt8} (h : s.length ≤ 9) : (∃ v, stoi s = .ok v) ↔ Numeric s := by
  rw [← digitsOf_ne_nil_iff]
  constructor
  · rintro ⟨v, hv⟩ hnil
    rw [stoi_eq, if_pos hnil] at hv
    cases hv
  · intro hne
    have hrange := stoi_ne_outOfRange h
    rw [stoi_eq, if_neg hne] at hrange ⊢
    rw [toInt] at hrange ⊢
    split_ifs at hrange ⊢ with hneg hout hout
    · exact absurd rfl hrange
    · exact ⟨_, rfl⟩
    · exact absurd rfl hrange
    · exact ⟨_, rfl⟩

/-! ### Where reading stops -/

/-- A byte that is no part of a number. -/
def Inert (b : UInt8) : Prop := isSpace b = false ∧ isDigit b = false ∧ b ≠ 45 ∧ b ≠ 43

lemma splitSign_append {b : UInt8} (h : Inert b) (t rest : List UInt8) :
    splitSign (t ++ b :: rest) = ((splitSign t).1, (splitSign t).2 ++ b :: rest) := by
  obtain ⟨-, -, h45, h43⟩ := h
  cases t with
  | nil => simp [splitSign, h45, h43]
  | cons c u =>
      rw [List.cons_append, splitSign, splitSign]
      split_ifs <;> rfl

/-- What follows a byte that is no part of a number is not read. -/
lemma stoi_append {b : UInt8} (h : Inert b) (s rest : List UInt8) :
    stoi (s ++ b :: rest) = stoi s := by
  have hdrop : (s ++ b :: rest).dropWhile isSpace = s.dropWhile isSpace ++ b :: rest := by
    rw [List.dropWhile_append]
    split_ifs with hnil
    · rw [List.isEmpty_iff.mp hnil, List.dropWhile_cons, h.1]
      rfl
    · rfl
  have htake : ∀ u : List UInt8, (u ++ b :: rest).takeWhile isDigit = u.takeWhile isDigit := by
    intro u
    rw [List.takeWhile_append]
    split_ifs with hlen
    · rw [List.takeWhile_cons, h.2.1, (List.takeWhile_prefix isDigit).eq_of_length hlen]
      simp
    · rfl
  simp only [stoi, hdrop, splitSign_append h, htake]

/-- A string that is cut at a byte which is no part of a number is read as before. -/
lemma stoi_takeWhile {p : UInt8 → Bool} (hp : ∀ b, p b = false → Inert b) (s : List UInt8) :
    stoi (s.takeWhile p) = stoi s := by
  cases hrest : s.dropWhile p with
  | nil =>
      have hs := List.takeWhile_append_dropWhile (p := p) (l := s)
      rw [hrest, List.append_nil] at hs
      rw [hs]
  | cons b rest =>
      have hb : p b = false := by
        have hhead := List.head?_dropWhile_not p s
        rw [hrest] at hhead
        simpa using hhead
      have hs := List.takeWhile_append_dropWhile (p := p) (l := s)
      rw [hrest] at hs
      calc stoi (s.takeWhile p) = stoi (s.takeWhile p ++ b :: rest) :=
            (stoi_append (hp b hb) _ _).symm
        _ = stoi s := by rw [hs]

/-! ### Printing -/

/-- The byte of a decimal digit. -/
def digit (d : ℕ) : UInt8 := UInt8.ofNat (48 + d)

/-- A natural number as a stream prints it. -/
def decimal (n : ℕ) : List UInt8 := (Nat.toDigits 10 n).map fun c => UInt8.ofNat c.toNat

/-- An integer as a stream prints it. -/
def print : ℤ → List UInt8
  | .ofNat n => decimal n
  | .negSucc n => 45 :: decimal (n + 1)

/-- A number printed with `std::setw(w)` and `std::setfill('0')`. -/
def setw (w : ℕ) (z : ℤ) : List UInt8 := List.replicate (w - (print z).length) 48 ++ print z

/-- The `w` low digits of a number, the most significant first. -/
def pad : ℕ → ℕ → List UInt8
  | 0, _ => []
  | w + 1, n => pad w (n / 10) ++ [digit (n % 10)]

lemma toNat_digit {d : ℕ} (h : d < 10) : (digit d).toNat = 48 + d := by
  rw [digit, UInt8.toNat_ofNat']
  omega

lemma isDigit_digit {d : ℕ} (h : d < 10) : isDigit (digit d) = true := by
  rw [isDigit_iff, toNat_digit h]
  omega

lemma ofNat_digitChar {d : ℕ} (h : d < 10) : UInt8.ofNat (Nat.digitChar d).toNat = digit d := by
  interval_cases d <;> rfl

lemma decimal_of_lt {n : ℕ} (h : n < 10) : decimal n = [digit n] := by
  rw [decimal, Nat.toDigits_of_lt_base h, List.map_singleton, ofNat_digitChar h]

/-- The last digit of a longer number comes off the end. -/
lemma decimal_of_ge {n : ℕ} (h : 10 ≤ n) : decimal n = decimal (n / 10) ++ [digit (n % 10)] := by
  have hlt : n % 10 < 10 := Nat.mod_lt n (by omega)
  rw [decimal, Nat.toDigits_of_base_le (by omega) h, List.map_append, List.map_singleton,
    ofNat_digitChar hlt, decimal]

lemma length_decimal_le_iff {n k : ℕ} (hk : 0 < k) : (decimal n).length ≤ k ↔ n < 10 ^ k := by
  rw [decimal, List.length_map]
  exact Nat.length_toDigits_le_iff (by omega) hk

@[simp] lemma length_pad (w n : ℕ) : (pad w n).length = w := by
  induction w generalizing n with
  | zero => rfl
  | succ w ih => simp [pad, ih]

lemma isDigit_of_mem_pad {w n : ℕ} : ∀ d ∈ pad w n, isDigit d = true := by
  induction w generalizing n with
  | zero => simp [pad]
  | succ w ih =>
      intro d hd
      rw [pad, List.mem_append, List.mem_singleton] at hd
      rcases hd with hd | rfl
      · exact ih d hd
      · exact isDigit_digit (Nat.mod_lt n (by omega))

lemma pad_zero (w : ℕ) : pad w 0 = List.replicate w 48 := by
  induction w with
  | zero => rfl
  | succ w ih => rw [pad, Nat.zero_div, ih, List.replicate_succ']; rfl

/-- A number that fits the field is printed as its `w` low digits. -/
lemma setw_eq_pad {w n : ℕ} (hw : 0 < w) (h : n < 10 ^ w) : setw w (n : ℤ) = pad w n := by
  show List.replicate (w - (decimal n).length) 48 ++ decimal n = pad w n
  induction w generalizing n with
  | zero => omega
  | succ w ih =>
      rw [pad]
      by_cases hn : n < 10
      · have h0 : n / 10 = 0 := by omega
        rw [decimal_of_lt hn, h0, pad_zero, Nat.mod_eq_of_lt hn]
        rfl
      · have hw' : 0 < w := by
          rcases Nat.eq_zero_or_pos w with rfl | hw'
          · rw [Nat.zero_add, pow_one] at h; omega
          · exact hw'
        have hlt : n / 10 < 10 ^ w := by rw [pow_succ] at h; omega
        rw [decimal_of_ge (by omega), ← ih hw' hlt, List.append_assoc]
        simp only [List.length_append, List.length_singleton, Nat.add_sub_add_right]

lemma digitsVal_pad {w n : ℕ} (h : n < 10 ^ w) : digitsVal (pad w n) = n := by
  induction w generalizing n with
  | zero =>
      rw [pow_zero] at h
      obtain rfl : n = 0 := by omega
      rfl
  | succ w ih =>
      have hlt : n / 10 < 10 ^ w := by rw [pow_succ] at h; omega
      rw [pad, digitsVal_append, ih hlt, toNat_digit (Nat.mod_lt n (by omega))]
      omega

/-- The print/parse inverse of a fixed-width field. -/
lemma stoi_pad {w n : ℕ} (hw : 0 < w) (h : n < 10 ^ w) (hn : n ≤ 2147483647) :
    stoi (pad w n) = .ok (n : ℤ) := by
  have hne : pad w n ≠ [] := by
    intro h0
    have := congrArg List.length h0
    simp at this
    omega
  have hstoi : stoi (pad w n ++ []) = .ok (digitsVal (pad w n) : ℤ) :=
    stoi_digits hne isDigit_of_mem_pad (by simp) (by rw [digitsVal_pad h]; exact hn)
  rwa [List.append_nil, digitsVal_pad h] at hstoi

/-! ### Printing with a sign -/

lemma length_decimal_pos (n : ℕ) : 0 < (decimal n).length := by
  rw [decimal, List.length_map]
  exact Nat.length_toDigits_pos

lemma decimal_eq_pad (n : ℕ) : decimal n = pad (decimal n).length n := by
  have hpos := length_decimal_pos n
  have hset := setw_eq_pad hpos ((length_decimal_le_iff hpos).mp le_rfl)
  rwa [setw, show print (n : ℤ) = decimal n from rfl, Nat.sub_self] at hset

lemma print_neg {n : ℕ} (h : 0 < n) : print (-(n : ℤ)) = 45 :: decimal n := by
  obtain ⟨m, rfl⟩ : ∃ m, n = m + 1 := ⟨n - 1, by omega⟩
  rfl

/-- A number fits a field if it has at most as many digits, with one place less for a
negative one. -/
lemma length_print_le_iff {z : ℤ} {k : ℕ} (hk : 0 < k) :
    (print z).length ≤ k + 1 ↔ -(10 : ℤ) ^ k < z ∧ z < 10 ^ (k + 1) := by
  have hpow : (0 : ℤ) < 10 ^ k := by positivity
  have hpow' : (0 : ℤ) < 10 ^ (k + 1) := by positivity
  rcases lt_or_ge z 0 with hz | hz
  · obtain ⟨n, rfl⟩ : ∃ n : ℕ, z = -(n : ℤ) := ⟨z.natAbs, by omega⟩
    rw [print_neg (by omega), List.length_cons, Nat.add_le_add_iff_right, length_decimal_le_iff hk]
    have hcast : n < 10 ^ k ↔ (n : ℤ) < 10 ^ k := by norm_cast
    rw [hcast]
    omega
  · obtain ⟨n, rfl⟩ := Int.eq_ofNat_of_zero_le hz
    rw [show print (n : ℤ) = decimal n from rfl, length_decimal_le_iff (by omega)]
    have hcast : n < 10 ^ (k + 1) ↔ (n : ℤ) < 10 ^ (k + 1) := by norm_cast
    rw [hcast]
    omega

lemma length_setw (w : ℕ) (z : ℤ) : (setw w z).length = max w (print z).length := by
  rw [setw, List.length_append, List.length_replicate]
  omega

/-- A field without fill is the number itself. -/
lemma setw_of_le {w : ℕ} {z : ℤ} (h : w ≤ (print z).length) : setw w z = print z := by
  rw [setw, Nat.sub_eq_zero_of_le h]
  rfl

/-- A number after a minus sign. -/
lemma stoi_neg_decimal {n : ℕ} (h : n ≤ 2147483647) : stoi (45 :: decimal n) = .ok (-(n : ℤ)) := by
  have hpos : 0 < (decimal n).length := length_decimal_pos n
  have hdigits : ∀ d ∈ decimal n, isDigit d = true := by
    rw [decimal_eq_pad]
    exact isDigit_of_mem_pad
  have hval : digitsVal (decimal n) = n := by
    rw [decimal_eq_pad]
    exact digitsVal_pad ((length_decimal_le_iff hpos).mp le_rfl)
  have hds : digitsOf (45 :: decimal n) = decimal n := List.takeWhile_eq_self_iff.mpr hdigits
  have hneg : negative (45 :: decimal n) = true := rfl
  rw [stoi_eq, hds, hneg, hval, if_neg (List.length_pos_iff.mp hpos), if_pos rfl, toInt,
    if_neg (by omega)]

/-- The fill in front of a minus sign is what is read. -/
lemma stoi_setw_neg {w n : ℕ} (h : 0 < n) (hw : (decimal n).length + 1 < w) :
    stoi (setw w (-(n : ℤ))) = .ok 0 := by
  obtain ⟨k, hk⟩ : ∃ k, w - (print (-(n : ℤ))).length = k + 1 := by
    rw [print_neg h, List.length_cons]
    exact ⟨w - (decimal n).length - 2, by omega⟩
  have hzero : digitsVal (List.replicate (k + 1) 48) = 0 := by
    rw [← pad_zero]
    exact digitsVal_pad (by positivity)
  rw [setw, hk, print_neg h]
  have hdigits : ∀ d ∈ List.replicate (k + 1) (48 : UInt8), isDigit d = true := by
    simp [List.mem_replicate]
    decide
  have hstoi : stoi (List.replicate (k + 1) 48 ++ 45 :: decimal n) =
      .ok (digitsVal (List.replicate (k + 1) 48)) :=
    stoi_digits (by simp) hdigits (by simp; decide) (by omega)
  rw [hstoi, hzero]
  rfl

/-- **Printing and reading back**: a number that fits the field is read back, unless
the fill stands in front of its minus sign. -/
lemma stoi_setw {w : ℕ} {z : ℤ} (hfit : (print z).length ≤ w) (hw : w ≤ 9) :
    stoi (setw w z) = .ok (if z < 0 ∧ (print z).length < w then 0 else z) := by
  have hpow : 10 ^ w ≤ 10 ^ 9 := Nat.pow_le_pow_right (by omega) hw
  rcases lt_or_ge z 0 with hz | hz
  · obtain ⟨n, rfl⟩ : ∃ n : ℕ, z = -(n : ℤ) := ⟨z.natAbs, by omega⟩
    have hn : 0 < n := by omega
    have hprint : (print (-(n : ℤ))).length = (decimal n).length + 1 := by
      rw [print_neg hn, List.length_cons]
    rw [hprint] at hfit ⊢
    by_cases hlt : (decimal n).length + 1 < w
    · rw [if_pos ⟨hz, hlt⟩, stoi_setw_neg hn hlt]
    · have hle : n < 10 ^ (decimal n).length :=
        (length_decimal_le_iff (length_decimal_pos n)).mp le_rfl
      have hle' : 10 ^ (decimal n).length ≤ 10 ^ w := Nat.pow_le_pow_right (by omega) (by omega)
      rw [if_neg (fun hand => hlt hand.2), setw_of_le (by omega), print_neg hn,
        stoi_neg_decimal (by omega)]
  · obtain ⟨n, rfl⟩ := Int.eq_ofNat_of_zero_le hz
    rw [if_neg (fun hand => absurd hand.1 (by omega))]
    have hpos : 0 < w := (length_decimal_pos n).trans_le hfit
    have hlt : n < 10 ^ w := (length_decimal_le_iff hpos).mp hfit
    rw [setw_eq_pad hpos hlt, stoi_pad hpos hlt (by omega)]

example : stoi [32, 45, 48, 55, 120] = .ok (-7) := by decide

end Decimal
