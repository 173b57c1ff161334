import Linkage.ClassDescriptor.Form
import Linkage.Proofs.Json.RoundTrip
import Linkage.Proofs.ProblemSet.Occurrence
import Linkage.Report.Form

namespace Linkage

open Document

namespace ClassDescriptor

theorem ofNode_node (source : Source) (c : ClassDescriptor) :
    ofNode source c.toJson.node = .ok c := by
  obtain ⟨name, superName, interfaces⟩ := c
  have hinterfaces := Json.readStrings_node interfaces
  rw [ofNode, toJson, Json.fieldsOf_object]
  · simp only [ok_bind, required, Document.optional, Json.fieldNodes, List.lookup_cons,
      String.reduceBEq]
    simp only [Json.node, readString, ok_bind, hinterfaces]
    cases superName <;> rfl
  · simp only [RecordRule.Accepts, Json.fieldNodes, List.forall_mem_cons]
    refine ⟨⟨_, rfl, check_of rfl⟩, ⟨_, rfl, ?_⟩, ⟨_, rfl, check_of hinterfaces⟩, by simp⟩
    cases superName <;> exact check_of rfl
  · simp [Json.fieldNodes]

theorem depth_toJson_le (c : ClassDescriptor) : c.toJson.depth ≤ 2 := by
  have hinterfaces := Json.depth_strings_le c.interfaces
  simp only [toJson, Json.depth, Json.fieldDepth]
  cases c.superName <;> simp only [Json.depth] <;> omega

theorem inWords_toJson (c : ClassDescriptor) : c.toJson.InWords := by
  refine ⟨trivial, ?_, Json.inWords_strings c.interfaces, trivial⟩
  cases c.superName <;> trivial

end ClassDescriptor

namespace AccessModifier

theorem ofNode_node (source : Source) (a : AccessModifier) : ofNode source a.toJson.node = .ok a := by
  cases a <;> rfl

end AccessModifier

namespace Problem

theorem readKind_node (k : ProblemKind) : readKind k.toJson.node = .ok k := by
  cases k <;> rfl

theorem ofKind_fields (p : Problem) : ofKind p.kind (Json.object p.fields).node = .ok p := by
  cases p with
  | classNotFound p =>
    rw [kind, fields, ofKind, ClassNotFound.ofNode, ClassNotFound.fields, Json.fieldsOf_object]
    · rfl
    · simp only [RecordRule.Accepts, Json.fieldNodes, List.forall_mem_cons]
      exact ⟨⟨_, rfl, check_of rfl⟩, by simp⟩
    · simp [Json.fieldNodes]
  | invokeInterfaceOnStaticMethod p =>
    rw [kind, fields, ofKind, InvokeInterfaceOnStaticMethod.ofNode,
      InvokeInterfaceOnStaticMethod.fields, Json.fieldsOf_object]
    · rfl
    · simp only [RecordRule.Accepts, Json.fieldNodes, List.forall_mem_cons]
      exact ⟨⟨_, rfl, check_of rfl⟩, by simp⟩
    · simp [Json.fieldNodes]
  | illegalClassAccess p =>
    have haccess := AccessModifier.ofNode_node .kept p.access
    rw [kind, fields, ofKind, IllegalClassAccess.ofNode, IllegalClassAccess.fields, Json.fieldsOf_object]
    · simp only [ok_bind, required, Json.fieldNodes, List.lookup_cons, String.reduceBEq]
      simp only [Json.node, readString, ok_bind, haccess]
      rfl
    · simp only [RecordRule.Accepts, Json.fieldNodes, List.forall_mem_cons]
      exact ⟨⟨_, rfl, check_of rfl⟩, ⟨_, rfl, check_of haccess⟩, ⟨_, rfl, check_of rfl⟩,
        by simp⟩
    · simp [Json.fieldNodes]

theorem splitKind_fields (p : Problem) :
    splitKind none [] (("kind", p.kind.toJson.node) :: Json.fieldNodes p.fields) =
      .ok (some p.kind, Json.fieldNodes p.fields) := by
  rw [splitKind, if_pos rfl, readKind_node]
  cases p <;> rfl

theorem ofNode_node (p : Problem) : ofNode p.toJson.node = .ok p := by
  rw [toJson, Json.node, Json.fieldNodes, ofNode, splitKind_fields]
  exact ofKind_fields p

theorem depth_toJson_le (p : Problem) : p.toJson.depth ≤ 1 := by
  cases p <;> exact Nat.le_refl 1

theorem inWords_toJson (p : Problem) : p.toJson.InWords := by
  cases p <;> simp only [toJson, fields, Json.InWords] <;> trivial

theorem readList_node (wanted : String) (ps : List Problem) :
    readList wanted ofNode (Json.array (ps.map toJson)).node = .ok ps := by
  rw [Json.node, Json.itemNodes_eq_map, List.map_map]
  exact readList_map (fun p _ => p.ofNode_node) wanted

theorem depth_list_le (ps : List Problem) : (Json.array (ps.map toJson)).depth ≤ 2 := by
  rw [Json.depth, Nat.add_le_add_iff_right, Json.itemDepth_le_iff, List.forall_mem_map]
  exact fun p _ => p.depth_toJson_le

theorem inWords_list (ps : List Problem) : (Json.array (ps.map toJson)).InWords := by
  rw [Json.InWords, Json.itemsInWords_iff, List.forall_mem_map]
  exact fun p _ => p.inWords_toJson

end Problem

namespace ProblemSet

theorem ofNode_node (s : ProblemSet) : ofNode s.toJson.node = .ok s := by
  rw [ofNode, toJson, Problem.readList_node]
  show Except.ok (collect s.toList) = Except.ok s
  rw [collect_toList]

theorem depth_toJson_le (s : ProblemSet) : s.toJson.depth ≤ 2 :=
  Problem.depth_list_le s.toList

theorem inWords_toJson (s : ProblemSet) : s.toJson.InWords :=
  Problem.inWords_list s.toList

end ProblemSet

namespace Report

theorem ofNode_node (source : Source) (r : Report) : ofNode source r.toJson.node = .ok r := by
  have hproblems := ProblemSet.ofNode_node r.problems
  have hcount : readCount (Json.number r.classesChecked).node = .ok r.classesChecked := by
    simp [Json.node, readCount]
  rw [toJson, ofNode, Json.fieldsOf_object]
  · simp only [ok_bind, required, Json.fieldNodes, List.lookup_cons, String.reduceBEq]
    simp only [ok_bind, hproblems, hcount]
    rfl
  · simp only [RecordRule.Accepts, Json.fieldNodes, List.forall_mem_cons]
    exact ⟨⟨_, rfl, check_of hcount⟩, ⟨_, rfl, check_of hproblems⟩, by simp⟩
  · simp [Json.fieldNodes]

theorem depth_toJson_le (r : Report) : r.toJson.depth ≤ 3 := by
  have hproblems := r.problems.depth_toJson_le
  simp only [toJson, Json.depth, Json.fieldDepth]
  omega

/-- What is written of a report, a problem, a set of problems or a class is read back as it was,
with every field, in the same order and number. -/
theorem read_render :
    (∀ r : Report, r.classesChecked ≤ Json.maxWord →
      (Json.parse r.toJson.render).read (Report.ofNode .json) = .ok r) ∧
    (∀ p : Problem, (Json.parse p.toJson.render).read Problem.ofNode = .ok p) ∧
    (∀ s : ProblemSet, (Json.parse s.toJson.render).read ProblemSet.ofNode = .ok s) ∧
    ∀ c : ClassDescriptor,
      (Json.parse c.toJson.render).read (ClassDescriptor.ofNode .json) = .ok c := by
  refine ⟨fun r h => ?_, fun p => ?_, fun s => ?_, fun c => ?_⟩
  · have hw : r.toJson.InWords := ⟨h, r.problems.inWords_toJson, trivial⟩
    exact Json.read_parse_render hw (Nat.le_trans r.depth_toJson_le (by decide)) (ofNode_node .json r)
  · exact Json.read_parse_render p.inWords_toJson (Nat.le_trans p.depth_toJson_le (by decide))
      p.ofNode_node
  · exact Json.read_parse_render s.inWords_toJson (Nat.le_trans s.depth_toJson_le (by decide))
      s.ofNode_node
  · exact Json.read_parse_render c.inWords_toJson (Nat.le_trans c.depth_toJson_le (by decide))
      (c.ofNode_node .json)

/-- Every bit of the count is set, and the names hold a quote, a backslash, a control character, a
character of four bytes and nothing at all. -/
def strange : Report where
  classesChecked := Json.maxWord
  problems := .collect [.classNotFound ⟨"\"\\\x00😀"⟩, .invokeInterfaceOnStaticMethod ⟨""⟩,
    .illegalClassAccess ⟨"a\n", .packagePrivate, "b from c"⟩]

theorem read_render_strange :
    strange.classesChecked ≤ Json.maxWord ∧
      (Json.parse strange.toJson.render).read (Report.ofNode .json) = .ok strange :=
  ⟨Nat.le_refl _, read_render.1 strange (Nat.le_refl _)⟩

end Report

end Linkage
