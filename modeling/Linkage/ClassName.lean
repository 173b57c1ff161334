namespace Linkage

/-- The name of a class; inside the library in internal form, with slashes between packages. -/
abbrev ClassName := String

namespace ClassName

def ofBinary (name : String) : ClassName :=
  name.map fun c => if c = '.' then '/' else c

/-- `org/some/Class$Inner` as it is written in source code, `org.some.Class.Inner`. -/
def toSource (name : ClassName) : String :=
  name.map fun c => if c = '/' ∨ c = '$' then '.' else c

theorem toList_ofBinary (name : String) :
    (ofBinary name).toList = name.toList.map fun c => if c = '.' then '/' else c := by
  simp [ofBinary]

theorem dot_notMem_ofBinary (name : String) : '.' ∉ (ofBinary name).toList := by
  rw [toList_ofBinary, List.mem_map]
  rintro ⟨c, -, h⟩
  split at h <;> simp_all

theorem ofBinary_eq_self {name : String} (h : '.' ∉ name.toList) : ofBinary name = name := by
  apply String.toList_inj.1
  rw [toList_ofBinary]
  refine (List.map_congr_left (g := id) fun c hc => ?_).trans (List.map_id _)
  have hdot : c ≠ '.' := fun hdot => h (hdot ▸ hc)
  simp [hdot]

end ClassName

end Linkage
