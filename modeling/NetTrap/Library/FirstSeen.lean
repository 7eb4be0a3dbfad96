import Mathlib.Data.List.Basic

/-! The distinct elements of a sequence in the order in which they are first seen. -/

namespace FirstSeen

variable {α : Type} [BEq α] [LawfulBEq α] {seen : List α} {element : α}

theorem eraseDups_concat_of_mem (member : element ∈ seen)
    : (seen ++ [element]).eraseDups = seen.eraseDups := by
  have known : [element].removeAll seen = [] := by
    simp [List.removeAll, member]
  rw [List.eraseDups_append, known]
  exact List.append_nil _

theorem eraseDups_concat_of_not_mem (fresh : element ∉ seen)
    : (seen ++ [element]).eraseDups = seen.eraseDups ++ [element] := by
  have unknown : [element].removeAll seen = [element] := by
    simp [List.removeAll, fresh]
  rw [List.eraseDups_append, unknown]
  rfl

end FirstSeen
