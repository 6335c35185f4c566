import DaemonRpc.Client.Call
import Mathlib.Data.List.Nodup

/-!
# The names of the methods

The name of a method in a request is in small letters, and no two methods have the same one.  A
name in any case of letters therefore stands for one method at most, which is the one that
`Method.ofName?` finds.

* `wireName_injective` and `toLower_wireName` are the two facts about the names.
* `ofName?_eq_some_iff` and `ofName?_eq_none_iff` say what a name stands for.
* `Method.Withheld` are the names that stand for a method that is not supported.  Such a name is
  never the method of a call that is sent: `Call.not_withheld_of_route`.
-/

namespace DaemonRpc

/-- Lower case, letter by letter. -/
theorem toList_toLower (s : String) : s.toLower.toList = s.toList.map Char.toLower :=
  String.toList_map

namespace Method

/-- The names have no capitals. -/
theorem toLower_wireName (m : Method) : m.wireName.toLower = m.wireName := by
  have hletters : m.wireName.toList.map Char.toLower = m.wireName.toList := by
    cases m <;> rfl
  apply String.toList_inj.1
  rw [toList_toLower, hletters]

/-- No two methods have the same name. -/
theorem wireName_injective {m n : Method} (h : m.wireName = n.wireName) : m = n := by
  have hnames : (all.map wireName).Nodup := by decide
  exact List.inj_on_of_nodup_map hnames (mem_all m) (mem_all n) h

/-- A name stands for a method if it is the method's name but for capitals. -/
theorem ofName?_eq_some_iff {name : String} {m : Method} :
    ofName? name = some m ↔ m.wireName = name.toLower := by
  constructor
  · intro hfound
    simpa using List.find?_some hfound
  · intro hname
    cases hfound : ofName? name with
    | none =>
      have hnone := List.find?_eq_none.1 hfound m (mem_all m)
      exact absurd hname (by simpa using hnone)
    | some n =>
      have hsame : n.wireName = name.toLower := by simpa using List.find?_some hfound
      rw [wireName_injective (hsame.trans hname.symm)]

/-- A name stands for no method if no method has it, with or without capitals. -/
theorem ofName?_eq_none_iff {name : String} :
    ofName? name = none ↔ ∀ m : Method, m.wireName ≠ name.toLower := by
  rw [Option.eq_none_iff_forall_ne_some]
  exact forall_congr' fun m => not_congr ofName?_eq_some_iff

/-- The names, in any case of letters, of the methods that are not supported. -/
def Withheld (name : String) : Prop := ∃ m : Method, m.supported = false ∧ m.wireName = name.toLower

/-- The name of a method is withheld exactly when the method is not supported. -/
theorem withheld_wireName_iff (m : Method) : Withheld m.wireName ↔ m.supported = false := by
  constructor
  · rintro ⟨n, hsupported, hname⟩
    rw [toLower_wireName] at hname
    rw [← wireName_injective hname]
    exact hsupported
  · intro hsupported
    exact ⟨m, hsupported, (toLower_wireName m).symm⟩

end Method

namespace Call

theorem not_withheld_of_catalogued {m : Method} {params params' : Params} {name : String}
    (h : catalogued m params = .ok (name, params')) : ¬ Method.Withheld name := by
  unfold catalogued at h
  split at h
  · rename_i hsupported
    obtain ⟨rfl, -⟩ := Prod.mk.inj (Except.ok.inj h)
    rw [Method.withheld_wireName_iff, hsupported]
    simp
  · exact absurd h (by simp)

/-- Whatever a caller asks for, the method that goes to the daemon is not withheld. -/
theorem not_withheld_of_route {c : Call} {name : String} {params : Params}
    (h : c.route = .ok (name, params)) : ¬ Method.Withheld name := by
  cases c with
  | operation op => exact not_withheld_of_catalogued h
  | stop => exact not_withheld_of_catalogued h
  | invoke m params => exact not_withheld_of_catalogued h
  | byName name' params =>
    simp only [route] at h
    split at h
    · exact not_withheld_of_catalogued h
    · rename_i hnone
      obtain ⟨rfl, -⟩ := Prod.mk.inj (Except.ok.inj h)
      rintro ⟨m, -, hname⟩
      exact Method.ofName?_eq_none_iff.1 hnone m hname

end Call

end DaemonRpc
