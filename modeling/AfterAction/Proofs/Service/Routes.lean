import AfterAction.Api.Route
import AfterAction.Proofs.Report.Naming
import Mathlib.Data.List.TakeWhile

/-!
# The path of a report

A run id has no character that means anything in a path: no slash, nothing that ends the path and no
percent sign. So the path of a run's report comes apart into its four parts, and the last of them,
which holds no escapes, stands for the id itself (`route_report`).
-/

namespace AfterAction

/-! ## Text without escapes -/

namespace Escape

theorem toList_loop (bytes : ByteArray) (i : Nat) (before : List UInt8) :
    ByteArray.toList.loop bytes i before = before.reverse ++ bytes.data.toList.drop i := by
  fun_induction ByteArray.toList.loop bytes i before with
  | case1 i before hi ih =>
    have hlt : i < bytes.data.toList.length := by simpa using hi
    rw [ih, List.drop_eq_getElem_cons hlt]
    simp [ByteArray.get!, hi]
  | case2 i before hi =>
    rw [List.drop_eq_nil_of_le (by simpa using Nat.le_of_not_lt hi)]
    simp

theorem bytesOf_eq (c : Char) : bytesOf c = String.utf8EncodeChar c := by
  rw [bytesOf, String.toUTF8_eq_toByteArray, String.toByteArray_singleton, ByteArray.toList,
    toList_loop]
  simp [List.utf8Encode]

theorem unescapedBytes_of_plain {cs : List Char} (h : '%' ∉ cs) :
    unescapedBytes cs = cs.flatMap String.utf8EncodeChar := by
  fun_induction unescapedBytes cs with
  | case1 | case2 => exact absurd List.mem_cons_self h
  | case3 c cs _ ih =>
    rw [ih fun hmem => h (List.mem_cons_of_mem c hmem), bytesOf_eq, List.flatMap_cons]
  | case4 => rfl

/-- A text without percent signs stands for itself. -/
theorem unescaped?_of_plain {cs : List Char} (h : '%' ∉ cs) :
    unescaped? cs = some (.ofList cs) := by
  have hbytes : (⟨(cs.flatMap String.utf8EncodeChar).toArray⟩ : ByteArray) = cs.utf8Encode :=
    ByteArray.ext List.data_toByteArray.symm
  rw [unescaped?, unescapedBytes_of_plain h, hbytes]
  exact dif_pos ByteArray.isValidUTF8_utf8Encode

end Escape

/-! ## Parts of a path -/

namespace Api

/-- No character of a run id parts a path or ends it, and none begins an escape. -/
theorem plain_of_allowed {c : Char} (h : RunId.allowed c = true) :
    c ≠ '/' ∧ c ≠ '%' ∧ endsPath c = false := by
  have hne : ∀ d, RunId.allowed d = false → c ≠ d := by
    rintro d hd rfl
    rw [h] at hd
    cases hd
  refine ⟨hne '/' (by decide), hne '%' (by decide), ?_⟩
  simp [endsPath, hne '?' (by decide), hne '#' (by decide)]

theorem parts_report {id : List Char} (h : ∀ c ∈ id, RunId.allowed c = true) :
    parts ("/api/reports/" ++ .ofList id) = [[], "api".toList, "reports".toList, id] := by
  have htarget : ("/api/reports/" ++ String.ofList id).toList =
      '/' :: ("api/reports/".toList ++ id) := by simp
  have hpath : pathOf ('/' :: ("api/reports/".toList ++ id)) =
      '/' :: ("api/reports/".toList ++ id) := by
    have hfront : ('/' :: "api/reports/".toList).all (!endsPath ·) = true := by decide
    refine List.takeWhile_eq_self_iff.mpr fun c hc => ?_
    rw [← List.cons_append] at hc
    rcases List.mem_append.mp hc with hmem | hmem
    · exact List.all_eq_true.mp hfront c hmem
    · rw [(plain_of_allowed (h c hmem)).2.2]
      rfl
  have hcut : '/' :: ("api/reports/".toList ++ id) =
      ['/'].intercalate [[], "api".toList, "reports".toList, id] := by
    simp [List.intercalate]
  rw [parts, htarget, hpath, hcut]
  refine List.splitOn_intercalate '/' (fun part hpart => ?_) (by simp)
  have hid : '/' ∉ id := fun hmem => (plain_of_allowed (h _ hmem)).1 rfl
  simp only [List.mem_cons, List.not_mem_nil, or_false] at hpart
  rcases hpart with rfl | rfl | rfl | rfl
  · exact List.not_mem_nil
  · decide
  · decide
  · exact hid

/-- **A run id is a path of its own**: the report of a run is looked up under its id. -/
theorem route_report (id : RunId) (contentType : Option String) (body : String) :
    route ⟨"GET", "/api/reports/" ++ id.text, contentType, body⟩ = .ok (.findReport id.text) := by
  have hchars : ∀ c ∈ id.text.toList, RunId.allowed c = true :=
    fun c hc => RunId.allowed_of_mem id.valid hc
  have hparts := parts_report hchars
  rw [String.ofList_toList] at hparts
  have hnone : '%' ∉ id.text.toList := fun hc => (plain_of_allowed (hchars _ hc)).2.1 rfl
  have hplain := Escape.unescaped?_of_plain hnone
  rw [String.ofList_toList] at hplain
  have hne : id.text ≠ "" := by
    intro hempty
    have hvalid := id.valid
    rw [hempty] at hvalid
    revert hvalid
    decide
  simp [route, hparts, reads, hne, hplain]

end Api
end AfterAction
