import Infragraph.Lib.Delimited
import Infragraph.Spec.Audit

/-! What the code hashes. The bytes of a text determine it, a hexadecimal sum
determines the sum, and the message of an audit event falls apart at its first
NUL because the previous hash is empty or hexadecimal. -/

namespace Infragraph

open Delimited

theorem utf8_inj {x y : List Char} (h : utf8 x = utf8 y) : x = y := by
  have hbytes : (String.ofList x).toByteArray = (String.ofList y).toByteArray := congrArg List.toByteArray h
  exact String.ofList_injective (String.toByteArray_inj.mp hbytes)

theorem bytes_ofList (x : List Char) : bytes (String.ofList x) = utf8 x := by
  have hdata : (utf8 x).toByteArray.data = (utf8 x).toArray := by simp
  show ((utf8 x).toByteArray.data).toList = utf8 x
  rw [hdata]

theorem bytes_inj {s t : String} (h : bytes s = bytes t) : s = t := by
  rw [← String.ofList_toList (s := s), ← String.ofList_toList (s := t), bytes_ofList, bytes_ofList] at h
  exact String.toList_injective (utf8_inj h)

theorem hexDigit_inj : ∀ m < 16, ∀ n < 16, hexDigit m = hexDigit n → m = n := by decide

def hexByte (b : UInt8) : List Char := [hexDigit (b.toNat / 16), hexDigit (b.toNat % 16)]

theorem hexByte_prefixFree : PrefixFree hexByte := by
  intro a b h
  have ha := a.toNat_lt
  have hb := b.toNat_lt
  obtain ⟨hhigh, hrest⟩ := List.cons_prefix_cons.mp h
  have hlow := (List.cons_prefix_cons.mp hrest).1
  have hhigh := hexDigit_inj _ (by omega) _ (by omega) hhigh
  have hlow := hexDigit_inj _ (by omega) _ (by omega) hlow
  exact UInt8.toNat_inj.mp (by omega)

theorem hexDigit_ne : ∀ n < 16, hexDigit n ≠ 'x' ∧ 0 ∉ String.utf8EncodeChar (hexDigit n) := by decide

theorem hexDigit_plain : ∀ n < 16, hexDigit n ≠ '|' := by decide

theorem hexEncode_plain (bs : List UInt8) : '|' ∉ hexEncode bs := by
  intro h
  obtain ⟨b, -, hb⟩ := List.mem_flatMap.mp h
  have hlt := b.toNat_lt
  rcases List.mem_cons.mp hb with hb | hb
  · exact hexDigit_plain _ (by omega) hb.symm
  · exact hexDigit_plain _ (by omega) (List.mem_singleton.mp hb).symm

theorem hexEncode_inj {x y : List UInt8} (h : hexEncode x = hexEncode y) : x = y := by
  have hmark : ∀ b u v, hexByte b ++ u ≠ 'x' :: v := by
    intro b u v heq
    have hb := b.toNat_lt
    exact (hexDigit_ne _ (by omega)).1 (List.cons.inj heq).1
  have happ : x.flatMap hexByte ++ 'x' :: [] = y.flatMap hexByte ++ 'x' :: [] := by
    show hexEncode x ++ _ = hexEncode y ++ _
    rw [h]
  exact (hexByte_prefixFree.flatMap_inj hmark happ).1

section

variable [Hashes]

theorem hexSum_inj {x y : List UInt8} (h : hexSum x = hexSum y) : sum256 x = sum256 y :=
  hexEncode_inj (String.ofList_injective h)

theorem hexSum_ne_empty {x : List UInt8} (h : sum256 x ≠ []) : hexSum x ≠ "" := by
  intro heq
  have hnil : hexEncode (sum256 x) = hexEncode [] := String.ofList_injective heq
  exact h (hexEncode_inj hnil)

theorem nul_not_mem_hexSum (x : List UInt8) : 0 ∉ bytes (hexSum x) := by
  intro h
  rw [hexSum, bytes_ofList] at h
  obtain ⟨c, hc, h0⟩ := List.mem_flatMap.mp h
  obtain ⟨b, -, hb⟩ := List.mem_flatMap.mp hc
  have hlt := b.toNat_lt
  simp only [List.mem_cons, List.not_mem_nil, or_false] at hb
  rcases hb with rfl | rfl
  · exact (hexDigit_ne _ (by omega)).2 h0
  · exact (hexDigit_ne _ (by omega)).2 h0

end

def auditMessage (previous : String) (payload : List Char) : List UInt8 := bytes previous ++ 0 :: utf8 payload

theorem auditMessage_inj {p p' : String} {x x' : List Char} (hp : 0 ∉ bytes p) (hp' : 0 ∉ bytes p')
    (h : auditMessage p x = auditMessage p' x') : p = p' ∧ x = x' := by
  obtain ⟨hprev, hpayload⟩ := mark_inj hp hp' h
  exact ⟨bytes_inj hprev, utf8_inj hpayload⟩

end Infragraph
