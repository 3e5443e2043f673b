/-!
# Texts cut at a separator

How the scan that cuts a text goes on from one position: the text has ended, no separator begins
here, or a separator of one character stands here. Rewriting with these cuts a text that is known;
unfolding the scan does not, as it recurses on positions.
-/

namespace SiblingStore.Text

variable {s sep : String} {b i j : String.Pos.Raw} {r : List String}

theorem splitOn_eq (h : (sep == "") = false) : s.splitOn sep = s.splitOnAux sep 0 0 0 [] := by
  unfold String.splitOn
  rw [if_neg (Bool.eq_false_iff.1 h)]

theorem splitOnAux_end (h : i.atEnd s = true) :
    s.splitOnAux sep b i j r = (String.Pos.Raw.extract s b i :: r).reverse := by
  rw [String.splitOnAux, if_pos h]

theorem splitOnAux_skip (h : i.atEnd s = false) (hget : (i.get s == j.get sep) = false) :
    s.splitOnAux sep b i j r = s.splitOnAux sep b ((i.unoffsetBy j).next s) 0 r := by
  rw [String.splitOnAux, if_neg (by simp [h]), if_neg (by simp [hget])]

theorem splitOnAux_cut (h : i.atEnd s = false) (hget : (i.get s == j.get sep) = true)
    (hsep : (j.next sep).atEnd sep = true) :
    s.splitOnAux sep b i j r = s.splitOnAux sep (i.next s) (i.next s) 0
      (String.Pos.Raw.extract s b ((i.next s).unoffsetBy (j.next sep)) :: r) := by
  rw [String.splitOnAux, if_neg (by simp [h]), if_pos hget, if_pos hsep]

end SiblingStore.Text
