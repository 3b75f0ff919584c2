import Mathlib.Data.List.GetD
import Vumi2.Lib.Text

/-!
# Base64

`b64encode` of the standard alphabet: three octets make four characters of six bits each, and `=`
fills up the last group.
-/

namespace Base64

open Text

/-- The characters, by their six bits. -/
def alphabet : Str := str "ABCDEFGHIJKLMNOPQRSTUVWXYZabcdefghijklmnopqrstuvwxyz0123456789+/"

/-- The character of the lowest six bits of a number. -/
def sextet (n : ℕ) : CodePoint := alphabet.getD (n % 64) (ofChar 'A')

/-- `base64.b64encode(bs).decode("utf-8")`. -/
def b64encode : Bytes → Str
  | [] => []
  | [a] => [sextet (a.toNat / 4), sextet (a.toNat * 16), ofChar '=', ofChar '=']
  | [a, b] =>
    [sextet (a.toNat / 4), sextet (a.toNat * 16 + b.toNat / 16), sextet (b.toNat * 4), ofChar '=']
  | a :: b :: c :: bs =>
    sextet (a.toNat / 4) :: sextet (a.toNat * 16 + b.toNat / 16) ::
      sextet (b.toNat * 4 + c.toNat / 64) :: sextet c.toNat :: b64encode bs

/-- The alphabet is of ASCII. -/
theorem alphabet_ascii : ∀ c ∈ alphabet, c.val < 128 := by
  have hall : alphabet.all (fun c => c.val < 128) = true := by decide +kernel
  intro c hc
  exact of_decide_eq_true (List.all_eq_true.1 hall c hc)

/-- The character of a sextet is of ASCII. -/
theorem sextet_ascii (n : ℕ) : (sextet n).val < 128 := by
  have hlen : n % 64 < alphabet.length := Nat.lt_of_lt_of_eq (Nat.mod_lt n (by decide)) rfl
  unfold sextet
  rw [List.getD_eq_getElem _ _ hlen]
  exact alphabet_ascii _ (List.getElem_mem hlen)

/-- Every character is ASCII. -/
theorem b64encode_ascii (bs : Bytes) : ∀ c ∈ b64encode bs, c.val < 128 := by
  have hpad : (ofChar '=').val < 128 := by decide
  induction bs using b64encode.induct with
  | case1 => simp [b64encode]
  | case2 a => simp [b64encode, sextet_ascii, hpad]
  | case3 a b => simp [b64encode, sextet_ascii, hpad]
  | case4 a b c bs ih =>
    unfold b64encode
    simpa [sextet_ascii] using ih

example : b64encode [0x4d, 0x61, 0x6e] = str "TWFu" := by decide

example : b64encode [0x4d] = str "TQ==" := by decide

end Base64
