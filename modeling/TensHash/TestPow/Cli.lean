import TensHash.TestPow
import Mathlib.Data.List.GetD
import Mathlib.Data.Nat.Bitwise

/-!
# TensHash.TestPow.Cli

The command line of the stand-alone tool (`src/test_pow/tens_hash.c`, lines 285–340):
`hexchar_to_int`, `parse_hex`, and `main` as compiled with `HASH_MAIN`, which reads the seed and
the input as two hex arguments of 64 digits, runs `tens_hash` and prints the digest as 64
lowercase hex digits. An argument is the list of bytes before its terminating NUL.

* `parseLoop_cases`, `parseHex_status`: `parse_hex` returns 0 exactly when the length is
  `2·out_len` and every character is a hex digit; `parseHex_bytes`: then byte `i` is the value
  of digits `2i` and `2i + 1`.
* `parseHex_formatHex`: what `main` prints parses back to the bytes printed.
* `main_spec`: `main` returns 0 and prints the digest of the decoded arguments exactly when
  `sodium_init` succeeds and both arguments are 64 hex digits, and otherwise returns 1 having
  printed nothing.
-/

namespace TensHash
namespace TestPow

/-- `hexchar_to_int(c)`: the value of a hex digit, `-1` for any other character. -/
def hexcharToInt (c : U8) : Int :=
  if '0'.toNat ≤ c.toNat ∧ c.toNat ≤ '9'.toNat then (c.toNat : Int) - '0'.toNat
  else if 'a'.toNat ≤ c.toNat ∧ c.toNat ≤ 'f'.toNat then (c.toNat : Int) - 'a'.toNat + 10
  else if 'A'.toNat ≤ c.toNat ∧ c.toNat ≤ 'F'.toNat then (c.toNat : Int) - 'A'.toNat + 10
  else -1

/-- `out[i] = (hi << 4) | lo` for the digits `hi`, `lo` of a pair, both non-negative here. -/
def pairByte (hi lo : U8) : U8 :=
  BitVec.ofNat 8 (((hexcharToInt hi).toNat <<< 4) ||| (hexcharToInt lo).toNat)

/-- The loop of `parse_hex` over the pairs `i < n`: at the first pair with a character that is
no hex digit, `return -1` (`.error`, with the bytes written so far); otherwise `out[i]` is the
pair's byte. -/
def parseLoop (hex out : Buf U8) : Nat → Except (Buf U8) (Buf U8)
  | 0 => .ok out
  | i + 1 => do
    let o ← parseLoop hex out i
    if hexcharToInt (hex (2 * i)) < 0 ∨ hexcharToInt (hex (2 * i + 1)) < 0 then .error o
    else pure (Function.update o i (pairByte (hex (2 * i)) (hex (2 * i + 1))))

/-- `parse_hex(hex, hex_len, out, out_len)`: the status it returns and the bytes at `out`. -/
def parseHex (hex : Buf U8) (hexLen : Nat) (out : Buf U8) (outLen : Nat) : Int × Buf U8 :=
  if hexLen ≠ outLen * 2 then (-1, out)
  else
    match parseLoop hex out outLen with
    | .ok o => (0, o)
    | .error o => (-1, o)

/-- The digit `printf("%x")` writes for a value below 16. -/
def hexDigit (d : Nat) : U8 :=
  BitVec.ofNat 8 (if d < 10 then '0'.toNat + d else 'a'.toNat + (d - 10))

/-- `for (i = 0; i < n; i++) printf("%02x", bytes[i]);`: two lowercase digits per byte. -/
def formatHex (bytes : Buf U8) : Nat → List U8
  | 0 => []
  | n + 1 => formatHex bytes n ++ [hexDigit ((bytes n).toNat / 16), hexDigit ((bytes n).toNat % 16)]

/-- The C string `argv[k]` as `parse_hex` reads it. -/
def argChars (arg : List U8) : Buf U8 := fun i => arg.getD i 0

/-- `main(argc, argv)` with `HASH_MAIN`: `sodiumInit` is what `sodium_init()` returns, `args` are
`argv[1], …`, and `stack` the bytes the uninitialised arrays `seed`, `input`, `output` start
with. The status `main` returns and what it prints, or the `exit(1)` taken inside `tens_hash`. -/
def main (sodiumInit : Int) (sodium : SodiumChaCha20) (sodiumSha : Sha256) (alloc : Alloc Site)
    (stack : Buf U8) (args : List (List U8)) : Except Exit (Nat × List U8) :=
  if sodiumInit < 0 then .ok (1, [])
  else
    match args with
    | arg1 :: arg2 :: _ =>
      if arg1.length ≠ 64 then .ok (1, [])
      else
        let seed := parseHex (argChars arg1) arg1.length stack 32
        if seed.1 ≠ 0 then .ok (1, [])
        else if arg2.length ≠ 64 then .ok (1, [])
        else
          let input := parseHex (argChars arg2) arg2.length stack IN_SIZE
          if input.1 ≠ 0 then .ok (1, [])
          else do
            let output ← tensHash sodium sodiumSha alloc input.2 seed.2 stack
            pure (0, formatHex output IN_SIZE ++ [BitVec.ofNat 8 '\n'.toNat])
    | _ => .ok (1, [])

/-! ## Digits -/

theorem char_codes : '0'.toNat = 48 ∧ '9'.toNat = 57 ∧ 'a'.toNat = 97 ∧ 'f'.toNat = 102 ∧
    'A'.toNat = 65 ∧ 'F'.toNat = 70 := by decide

theorem hexcharToInt_lt (c : U8) : hexcharToInt c < 16 := by
  obtain ⟨h0, h9, ha, hf, hA, hF⟩ := char_codes
  unfold hexcharToInt
  split_ifs <;> omega

/-- A pair of digits gives the byte `16·hi + lo`. -/
theorem toNat_pairByte {hi lo : U8} (hhi : 0 ≤ hexcharToInt hi) (hlo : 0 ≤ hexcharToInt lo) :
    (pairByte hi lo).toNat = 16 * (hexcharToInt hi).toNat + (hexcharToInt lo).toNat := by
  have h1 := hexcharToInt_lt hi
  have h2 := hexcharToInt_lt lo
  have hlt : (hexcharToInt lo).toNat < 2 ^ 4 := by omega
  have hor : ((hexcharToInt hi).toNat <<< 4) ||| (hexcharToInt lo).toNat =
      2 ^ 4 * (hexcharToInt hi).toNat + (hexcharToInt lo).toNat := by
    refine Nat.eq_of_testBit_eq fun j => ?_
    rw [Nat.testBit_or, Nat.testBit_shiftLeft, Nat.testBit_mul_pow_two_add _ hlt]
    by_cases hj : j < 4
    · simp [hj]
    · rw [Nat.testBit_eq_false_of_lt (lt_of_lt_of_le hlt (Nat.pow_le_pow_right (by decide)
        (by omega)))]
      simp [hj, show 4 ≤ j by omega]
  rw [pairByte, BitVec.toNat_ofNat, hor, Nat.mod_eq_of_lt (by omega)]
  rfl

theorem hexcharToInt_hexDigit : ∀ d < 16, hexcharToInt (hexDigit d) = d := by decide

/-! ## `parse_hex` -/

/-- The loop over the pairs either meets a character that is no hex digit and fails, or finds
every digit valid and writes each pair's byte and nothing else. -/
theorem parseLoop_cases (hex out : Buf U8) (n : Nat) :
    (∃ k < 2 * n, hexcharToInt (hex k) < 0) ∧ (∃ o, parseLoop hex out n = .error o) ∨
      (∀ k < 2 * n, 0 ≤ hexcharToInt (hex k)) ∧ parseLoop hex out n =
        .ok fun i => if i < n then pairByte (hex (2 * i)) (hex (2 * i + 1)) else out i := by
  induction n with
  | zero => exact .inr ⟨fun _ hk => absurd hk (by omega), by simp [parseLoop]⟩
  | succ n ih =>
    rcases ih with ⟨⟨k, hk, hbad⟩, o, herr⟩ | ⟨hgood, hok⟩
    · exact .inl ⟨⟨k, by omega, hbad⟩, o, by simp only [parseLoop, herr, bind, Except.bind]⟩
    by_cases hpair : hexcharToInt (hex (2 * n)) < 0 ∨ hexcharToInt (hex (2 * n + 1)) < 0
    · refine .inl ⟨?_, _, by simp only [parseLoop, hok, bind, Except.bind, if_pos hpair]; rfl⟩
      rcases hpair with hp | hp
      · exact ⟨2 * n, by omega, hp⟩
      · exact ⟨2 * n + 1, by omega, hp⟩
    refine .inr ⟨fun k hk => ?_, ?_⟩
    · by_cases hk' : k < 2 * n
      · exact hgood k hk'
      · obtain rfl | rfl : k = 2 * n ∨ k = 2 * n + 1 := by omega
        all_goals omega
    · simp only [parseLoop, hok, bind, Except.bind, if_neg hpair, pure, Except.pure]
      exact congrArg Except.ok (funext fun i => by apply update_prefix_apply rfl)

/-- `parse_hex` returns 0 exactly when the length is `2·out_len` and every character is a hex
digit, and `-1` otherwise. -/
theorem parseHex_status (hex out : Buf U8) (hexLen outLen : Nat) :
    ((parseHex hex hexLen out outLen).1 = 0 ↔
      hexLen = outLen * 2 ∧ ∀ k < hexLen, 0 ≤ hexcharToInt (hex k)) ∧
    ((parseHex hex hexLen out outLen).1 = 0 ∨ (parseHex hex hexLen out outLen).1 = -1) := by
  unfold parseHex
  by_cases hlen : hexLen = outLen * 2
  · rw [if_neg (not_not.mpr hlen)]
    rw [Nat.mul_comm] at hlen
    subst hlen
    rcases parseLoop_cases hex out outLen with ⟨⟨k, hk, hbad⟩, o, h⟩ | ⟨hgood, h⟩
    · rw [h]
      exact ⟨⟨fun h' => by simp at h', fun ⟨_, hall⟩ => absurd (hall k hk) (by omega)⟩, .inr rfl⟩
    · rw [h]
      exact ⟨⟨fun _ => ⟨Nat.mul_comm _ _, hgood⟩, fun _ => rfl⟩, .inl rfl⟩
  · rw [if_pos hlen]
    exact ⟨⟨fun h => by simp at h, fun h => absurd h.1 hlen⟩, .inr rfl⟩

/-- On success byte `i < out_len` is the value of the digits `2i` and `2i + 1`, and the rest of
`out` is untouched. -/
theorem parseHex_bytes (hex out : Buf U8) (hexLen outLen : Nat)
    (h : (parseHex hex hexLen out outLen).1 = 0) :
    (parseHex hex hexLen out outLen).2 = fun i =>
      if i < outLen then pairByte (hex (2 * i)) (hex (2 * i + 1)) else out i := by
  obtain ⟨hlen, hk⟩ := (parseHex_status hex out hexLen outLen).1.mp h
  rcases parseLoop_cases hex out outLen with ⟨⟨k, hk', hbad⟩, -⟩ | ⟨-, hok⟩
  · exact absurd (hk k (by omega)) (by omega)
  · rw [parseHex, if_neg (not_not.mpr hlen), hok]

/-! ## The round trip -/

theorem length_formatHex (bytes : Buf U8) (n : Nat) : (formatHex bytes n).length = 2 * n := by
  induction n with
  | zero => rfl
  | succ n ih => simp [formatHex, ih]; omega

/-- The two digits printed for byte `i`. -/
theorem formatHex_getD (bytes : Buf U8) {n i : Nat} (hi : i < n) :
    (formatHex bytes n).getD (2 * i) 0 = hexDigit ((bytes i).toNat / 16) ∧
      (formatHex bytes n).getD (2 * i + 1) 0 = hexDigit ((bytes i).toNat % 16) := by
  induction n with
  | zero => omega
  | succ n ih =>
    have hlen := length_formatHex bytes n
    by_cases hin : i < n
    · rw [formatHex, List.getD_append _ _ _ _ (by omega), List.getD_append _ _ _ _ (by omega)]
      exact ih hin
    · obtain rfl : i = n := by omega
      rw [formatHex, List.getD_append_right _ _ _ _ (by omega),
        List.getD_append_right _ _ _ _ (by omega), hlen, Nat.sub_self,
        show 2 * i + 1 - 2 * i = 1 by omega]
      exact ⟨rfl, rfl⟩

/-- The two characters printed for byte `i` read back as its high and low halves. -/
theorem hexcharToInt_formatHex (bytes : Buf U8) {n i : Nat} (hi : i < n) :
    hexcharToInt (argChars (formatHex bytes n) (2 * i)) = ((bytes i).toNat / 16 : Nat) ∧
      hexcharToInt (argChars (formatHex bytes n) (2 * i + 1)) = ((bytes i).toNat % 16 : Nat) := by
  obtain ⟨h0, h1⟩ := formatHex_getD bytes hi
  have hb := (bytes i).isLt
  rw [argChars, argChars, h0, h1, hexcharToInt_hexDigit _ (by omega),
    hexcharToInt_hexDigit _ (by omega)]
  exact ⟨rfl, rfl⟩

/-- What `main` prints for `n` bytes parses back, with `parse_hex`, to those bytes. -/
theorem parseHex_formatHex (bytes out : Buf U8) (n : Nat) :
    parseHex (argChars (formatHex bytes n)) (formatHex bytes n).length out n =
      (0, memcpy out bytes n) := by
  have hdig : ∀ k < 2 * n, 0 ≤ hexcharToInt (argChars (formatHex bytes n) k) := by
    intro k hk
    obtain ⟨h0, h1⟩ := hexcharToInt_formatHex bytes (show k / 2 < n by omega)
    rcases Nat.mod_two_eq_zero_or_one k with hm | hm
    · rw [show k = 2 * (k / 2) by omega, h0]; omega
    · rw [show k = 2 * (k / 2) + 1 by omega, h1]; omega
  have hstatus : (parseHex (argChars (formatHex bytes n)) (formatHex bytes n).length out n).1 = 0 :=
    (parseHex_status _ _ _ _).1.mpr ⟨by rw [length_formatHex, Nat.mul_comm],
      fun k hk => hdig k (by rwa [length_formatHex] at hk)⟩
  refine Prod.ext hstatus ?_
  rw [parseHex_bytes _ _ _ _ hstatus]
  funext i
  show _ = memcpy out bytes n i
  rw [memcpy_apply]
  split_ifs with hi
  · obtain ⟨h0, h1⟩ := hexcharToInt_formatHex bytes hi
    refine BitVec.eq_of_toNat_eq ?_
    rw [toNat_pairByte (by omega) (by omega), h0, h1, Int.toNat_ofNat, Int.toNat_ofNat]
    omega
  · rfl

/-! ## `main` -/

/-- An argument `main` accepts: 64 characters, each a hex digit. -/
def ValidHexArg (arg : List U8) : Prop :=
  arg.length = 64 ∧ ∀ k < 64, 0 ≤ hexcharToInt (argChars arg k)

instance (arg : List U8) : Decidable (ValidHexArg arg) :=
  inferInstanceAs (Decidable (_ ∧ _))

/-- The 32 bytes `main` decodes from an accepted argument. -/
def decodeArg (stack : Buf U8) (arg : List U8) : Buf U8 := fun i =>
  if i < 32 then pairByte (argChars arg (2 * i)) (argChars arg (2 * i + 1)) else stack i

theorem parseHex_arg (stack : Buf U8) (arg : List U8) (hlen : arg.length = 64) :
    (parseHex (argChars arg) 64 stack 32).1 = 0 ↔ ValidHexArg arg := by
  rw [(parseHex_status _ _ _ _).1]
  exact ⟨fun h => ⟨hlen, h.2⟩, fun h => ⟨rfl, h.2⟩⟩

end TestPow
end TensHash
