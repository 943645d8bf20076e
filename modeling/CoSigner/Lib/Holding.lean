import Mathlib.Data.List.Induction

/-! Who holds a resource, read off a history in which some entries say that a holder has
taken it and some that a holder has given it back. -/
namespace CoSigner.Holding
variable {ε α : Type} [DecidableEq α]

/-- The holders after an entry; `change` is `some (a,true)` if `a` takes the resource and
`some (a,false)` if `a` gives it back. -/
def after (change : ε → Option (α × Bool)) (holders : List α) (e : ε) : List α :=
  match change e with
  | some (a,true) => a :: holders
  | some (a,false) => holders.filter (· ≠ a)
  | none => holders

def held (change : ε → Option (α × Bool)) (l : List ε) : List α := l.foldl (after change) []

variable {change : ε → Option (α × Bool)}

theorem held_snoc (l : List ε) (e : ε) : held change (l ++ [e]) = after change (held change l) e := by
  simp [held]

theorem held_none {e : ε} (h : change e = none) (l : List ε) :
    held change (l ++ [e]) = held change l := by
  simp [held_snoc, after, h]

theorem held_take {e : ε} {a : α} (h : change e = some (a,true)) (l : List ε) :
    held change (l ++ [e]) = a :: held change l := by
  simp [held_snoc, after, h]

theorem held_give {e : ε} {a : α} (h : change e = some (a,false)) (l : List ε) :
    held change (l ++ [e]) = (held change l).filter (· ≠ a) := by
  simp [held_snoc, after, h]

theorem length_give {holders : List α} (hn : holders.Nodup) {a : α} (ha : a ∈ holders) :
    (holders.filter (· ≠ a)).length = holders.length - 1 := by
  have hfilter : holders.filter (· ≠ a) = holders.erase a := by
    rw [hn.erase_eq_filter]
    exact List.filter_congr fun b _ => by simp [bne, BEq.beq]
  rw [hfilter, List.length_erase_of_mem ha]

theorem held_without (l : List ε) (a : α) :
    held change (l.filter fun e => (change e).map Prod.fst ≠ some a) =
      (held change l).filter (· ≠ a) := by
  induction l using List.reverseRecOn with
  | nil => rfl
  | append_singleton l e ih =>
    rw [List.filter_append]
    cases hchange : change e with
    | none =>
      rw [held_none hchange, ← ih, List.filter_cons_of_pos (by simp [hchange])]
      exact held_none hchange _
    | some change' =>
      obtain ⟨b,taken⟩ := change'
      by_cases hb : b = a
      · obtain rfl := hb
        rw [List.filter_cons_of_neg (by simp [hchange]), List.filter_nil, List.append_nil, ih]
        cases taken with
        | true => simp [held_take hchange]
        | false => simp [held_give hchange]
      · rw [List.filter_cons_of_pos (by simp [hchange, hb]), List.filter_nil]
        cases taken with
        | true => rw [held_take hchange, held_take hchange, ih, List.filter_cons_of_pos (by simp [hb])]
        | false =>
          rw [held_give hchange, held_give hchange, ih, List.filter_filter, List.filter_filter]
          exact List.filter_congr fun c _ => Bool.and_comm _ _

end CoSigner.Holding
