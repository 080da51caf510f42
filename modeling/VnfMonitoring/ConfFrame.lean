import Mathlib.Data.List.Nodup
import VnfMonitoring.HostConf
import VnfMonitoring.VmctProcess

set_option autoImplicit false

/- Setting one key: which fields change, and what becomes of the order of a file's lines. -/
namespace VnfMonitoring.ConfFrame

open VnfMonitoring.Memory VnfMonitoring.Runs VnfMonitoring.Objects VnfMonitoring.Lines
  VnfMonitoring.Fields VnfMonitoring.DbmbStatus VnfMonitoring.ConfFile

section Layout

variable {Obj : Type} [DecidableEq Obj] {size : Obj → Nat}

/-- The value is shorter than the array that the name's key copies it to, if there is one. -/
def Fits (settings : List (Setting Obj)) (name value : List UInt8) : Prop :=
  ∀ setting ∈ settings, setting.name = name →
    ∀ width, setting.room = some width → value.length < width

/-- The call changes no field but those that belong to the name. -/
def KeepsOthers (keys : List (Key (Contents size))) (settings : List (Setting Obj))
    (fields : List (Place Obj)) (name value : List UInt8) : Prop :=
  ∀ c : Contents size, ∃ next, gettoken keys name value c = some next ∧
    ∀ field ∈ fields, (∀ setting ∈ settings, setting.name = name → field ∉ setting.own) →
      Objects.read next field = Objects.read c field

/-- How the keys of a program lie in its objects. -/
structure Layout (keys : List (Key (Contents size))) (settings : List (Setting Obj))
    (fields : List (Place Obj)) : Prop where
  realised : List.Forall₂ Realises keys settings
  placed : ∀ setting ∈ settings, setting.Placed
  nodup : (settings.map Setting.name).Nodup
  inside : ∀ setting ∈ settings, ∀ p ∈ setting.own, p.offset + p.width ≤ size p.obj
  apart : ∀ setting ∈ settings, ∀ p ∈ setting.own, ∀ field ∈ fields, field ∉ setting.own →
    p.Apart field
  separate : ∀ setting ∈ settings, ∀ other ∈ settings, setting.name ≠ other.name →
    ∀ p ∈ setting.own, ∀ q ∈ other.own, p.Apart q
  copies : ∀ setting ∈ settings, setting.Copies
  /-- Behind an array that takes a value there is another field. -/
  followed : ∀ setting ∈ settings, ∀ p ∈ setting.own, setting.room = some p.width →
    ∃ field ∈ fields, field ∉ setting.own ∧ field.obj = p.obj ∧
      field.offset = p.offset + p.width ∧ 0 < field.width

variable {keys : List (Key (Contents size))} {settings : List (Setting Obj)}
  {fields : List (Place Obj)} {setting : Setting Obj} {name value : List UInt8}

theorem Layout.unique (layout : Layout keys settings fields) (member : setting ∈ settings)
    {other : Setting Obj} (inside : other ∈ settings) (same : other.name = setting.name) :
    other = setting :=
  List.inj_on_of_nodup_map layout.nodup inside member same

theorem Layout.fits_iff (layout : Layout keys settings fields) (member : setting ∈ settings) :
    Fits settings setting.name value ↔
      ∀ width, setting.room = some width → value.length < width := by
  refine ⟨fun fits => fits setting member rfl, fun fits other inside same => ?_⟩
  rw [layout.unique member inside same]
  exact fits

/-- A write of a value that fits stays inside the objects. -/
theorem Layout.write_inside (layout : Layout keys settings fields) (member : setting ∈ settings)
    (short : ∀ width, setting.room = some width → value.length < width) :
    ∀ w ∈ setting.writes value, w.offset + w.bytes.length ≤ size w.obj := by
  intro w written
  rcases (layout.placed setting member value w written).2 with own | ⟨p, own, rfl, room⟩
  · exact layout.inside setting member _ own
  · have fits := short p.width room
    have inside := layout.inside setting member p own
    simp only [copyTo, List.length_append, List.length_singleton]
    omega

/-- A value that does not fit runs over the next field. -/
theorem Layout.overruns (layout : Layout keys settings fields) (member : setting ∈ settings)
    {width : Nat} (room : setting.room = some width) (long : width ≤ value.length) :
    ∃ field ∈ fields, field ∉ setting.own ∧ ∃ c : Contents size, ∀ next,
      run write c (setting.writes value) = some next →
        Objects.read next field ≠ Objects.read c field := by
  obtain ⟨p, own, rfl, copies⟩ := layout.copies setting member width room
  obtain ⟨field, listed, other, obj, offset, some_⟩ := layout.followed setting member p own room
  have covers : (copyTo p value).Covers field.obj field.offset := by
    refine ⟨obj.symm, ?_, ?_⟩
    · simp only [copyTo]
      omega
    · simp only [copyTo, List.length_append, List.length_singleton]
      omega
  obtain ⟨c, changed⟩ : ∃ c : Contents size, ∀ next, run write c (setting.writes value) = some next →
      (next field.obj).toList[field.offset]? ≠ (c field.obj).toList[field.offset]? :=
    exists_changed (copies value) covers
  refine ⟨field, listed, other, c, fun next done same => changed next done ?_⟩
  have first := congrArg (·[0]?) same
  simpa only [Objects.read, region_getElem?, if_pos some_, Nat.add_zero] using first

/-- The call for a key changes its own fields only exactly when the value fits. -/
theorem keepsOthers_iff (layout : Layout keys settings fields) (text : (0 : UInt8) ∉ value) :
    KeepsOthers keys settings fields name value ↔ Fits settings name value := by
  unfold KeepsOthers
  simp only [gettoken_eq layout.realised name text]
  by_cases known : ∃ setting ∈ settings, setting.name = name
  · obtain ⟨setting, member, rfl⟩ := known
    rw [layout.fits_iff member, assigned_eq layout.nodup member]
    constructor
    · intro keeps width room
      by_contra long
      obtain ⟨field, listed, other, c, changed⟩ :=
        layout.overruns member room (Nat.not_lt.mp long)
      obtain ⟨next, done, kept⟩ := keeps c
      refine changed next done (kept field listed fun other_ inside same => ?_)
      rwa [layout.unique member inside same]
    · intro short c
      obtain ⟨next, done⟩ := Option.isSome_iff_exists.mp
        ((run_isSome_iff c _).mpr (layout.write_inside member short))
      refine ⟨next, done, fun field listed other => read_run ?_ done⟩
      exact (layout.placed setting member).apart short fun p own =>
        layout.apart setting member p own field listed (other setting member rfl)
  · have none_ : assigned settings name value = [] :=
      List.eq_nil_iff_forall_not_mem.mpr fun w member => by
        obtain ⟨setting, inside, same, _⟩ := mem_assigned.mp member
        exact known ⟨setting, inside, same⟩
    rw [none_]
    exact iff_of_true (fun c => ⟨c, rfl, fun _ _ _ => rfl⟩)
      fun setting inside same => absurd ⟨setting, inside, same⟩ known

end Layout

section Order

variable {strSize : Nat}

/-- What one line assigns, in its pieces. -/
def given (strSize : Nat) (line : List UInt8) : Option (List (List UInt8 × List UInt8)) :=
  assignments (pieces newline (strSize - 1) [] (line ++ [newline]))

/-- A newline at the end makes no difference. -/
theorem assignments_newline {held last : List UInt8} {width : Nat} (open_ : newline ∉ last) :
    assignments (pieces newline width held (last ++ [newline])) =
      assignments (pieces newline width held last) := by
  induction last generalizing held with
  | nil =>
      have same := scanLine_congr (words_newline held)
      by_cases empty : held = []
      · subst empty
        simp only [List.nil_append, pieces, true_or, if_true, assignments]
        rw [show scanLine [newline] = some none by decide]
        rfl
      · simp only [List.nil_append, pieces, true_or, if_true, if_neg empty, assignments, same]
  | cons c last ih =>
      rw [List.mem_cons, not_or] at open_
      rw [List.cons_append, pieces, pieces]
      split
      · rw [assignments, assignments, ih open_.2]
      · exact ih open_.2

/-- A file assigns what its lines do, one after the other. -/
theorem assignments_lines (content : List UInt8) :
    assignments (pieces newline (strSize - 1) [] content) =
      ((content.splitOn newline).mapM (given strSize)).map List.flatten := by
  obtain ⟨lines, last, rfl, plain, open_⟩ := exists_lines newline content
  rw [splitOn_ended plain open_]
  clear plain
  induction lines with
  | nil =>
      rw [ended_nil, List.nil_append, List.nil_append, ← assignments_newline open_]
      change given strSize last = _
      rw [List.mapM_cons, List.mapM_nil]
      cases given strSize last <;> simp
  | cons line lines ih =>
      rw [ended_cons, List.append_assoc, List.cons_append, pieces_line, assignments_append, ih,
        List.cons_append, List.mapM_cons]
      change (given strSize line).bind _ = _
      cases given strSize line with
      | none => rfl
      | some first => cases (lines ++ [last]).mapM (given strSize) <;> simp

theorem mapM_eq {lines : List (List UInt8)} (scanned : ∀ line ∈ lines, (given strSize line).isSome) :
    lines.mapM (given strSize) = some (lines.map fun line => (given strSize line).getD []) := by
  induction lines with
  | nil => rfl
  | cons line lines ih =>
      rw [List.forall_mem_cons] at scanned
      obtain ⟨first, found⟩ := Option.isSome_iff_exists.mp scanned.1
      rw [List.mapM_cons, found, ih scanned.2, List.map_cons, found]
      rfl

theorem mapM_eq_none {lines : List (List UInt8)} {line : List UInt8} (member : line ∈ lines)
    (lost : given strSize line = none) : lines.mapM (given strSize) = none := by
  obtain ⟨front, behind, rfl⟩ := List.append_of_mem member
  rw [List.mapM_append, List.mapM_cons, lost]
  cases front.mapM (given strSize) <;> rfl

variable {Obj : Type} [DecidableEq Obj] {size : Obj → Nat} {keys : List (Key (Contents size))}
  {settings : List (Setting Obj)} {fields : List (Place Obj)}

/-- No two lines set the same key. -/
def DistinctKeys (strSize : Nat) (content : List UInt8) : Prop :=
  (content.splitOn newline).Pairwise fun line other =>
    ∀ x ∈ (given strSize line).getD [], ∀ y ∈ (given strSize other).getD [], x.1 ≠ y.1

/-- Every value that a line sets fits. -/
def AllFit (settings : List (Setting Obj)) (strSize : Nat) (content : List UInt8) : Prop :=
  ∀ line ∈ content.splitOn newline, ∀ entry ∈ (given strSize line).getD [],
    Fits settings entry.1 entry.2

/-- The writes of two keys are apart. -/
theorem Layout.assigned_apart (layout : Layout keys settings fields)
    {x y : List UInt8 × List UInt8} (other : x.1 ≠ y.1) (fits : Fits settings x.1 x.2)
    (fits' : Fits settings y.1 y.2) :
    ∀ w ∈ assigned settings x.1 x.2, ∀ v ∈ assigned settings y.1 y.2, w.place.Apart v.place := by
  intro w member v member'
  obtain ⟨setting, inside, same, written⟩ := mem_assigned.mp member
  obtain ⟨setting', inside', same', written'⟩ := mem_assigned.mp member'
  have separate := layout.separate setting inside setting' inside' (same ▸ same' ▸ other)
  refine ((layout.placed setting' inside').apart (fits' setting' inside' same') ?_ v written').symm
  exact fun q own' => ((layout.placed setting inside).apart (fits setting inside same)
    (fun p own => separate p own q own') w written).symm

/-- With distinct keys and values that fit, the order of the lines makes no difference. -/
theorem readLines_perm (layout : Layout keys settings fields) {f g : List UInt8}
    (perm : (f.splitOn newline).Perm (g.splitOn newline)) (distinct : DistinctKeys strSize f)
    (fits : AllFit settings strSize f) (c : Contents size) :
    readLines strSize keys c f = readLines strSize keys c g := by
  rw [readLines_eq layout.realised, readLines_eq layout.realised, assignments_lines,
    assignments_lines]
  unfold DistinctKeys at distinct
  unfold AllFit at fits
  generalize f.splitOn newline = lines at perm distinct fits
  generalize g.splitOn newline = others at perm
  by_cases scanned : ∀ line ∈ lines, (given strSize line).isSome
  · rw [mapM_eq scanned, mapM_eq fun line member => scanned line (perm.mem_iff.mpr member)]
    have groups (l : List (List UInt8)) :
        assignedAll settings (l.map fun line => (given strSize line).getD []).flatten =
          (l.map fun line => assignedAll settings ((given strSize line).getD [])).flatten := by
      induction l with
      | nil => rfl
      | cons line l ih =>
          rw [List.map_cons, List.flatten_cons, assignedAll, List.flatMap_append, ← assignedAll,
            ← assignedAll, ih, List.map_cons, List.flatten_cons]
    simp only [Option.map_some, Option.bind_some, groups]
    refine run_perm (perm.map _) (List.pairwise_map.mpr ?_) c
    refine distinct.imp_of_mem fun {line other} inside inside' apart w member v member' => ?_
    obtain ⟨x, first, written⟩ := List.mem_flatMap.mp member
    obtain ⟨y, second, written'⟩ := List.mem_flatMap.mp member'
    exact layout.assigned_apart (apart x first y second) (fits line inside x first)
      (fits other inside' y second) w written v written'
  · obtain ⟨line, lost⟩ := not_forall.mp scanned
    obtain ⟨member, lost⟩ := Classical.not_imp.mp lost
    have none_ := Option.not_isSome_iff_eq_none.mp lost
    rw [mapM_eq_none member none_, mapM_eq_none (perm.mem_iff.mp member) none_]

end Order

section Programs

variable (order : ByteOrder) (inetAddr : List UInt8 → UInt32) (d : UInt32)

theorem host_layout : Layout (HostConf.keys order inetAddr d) (HostConf.settings order inetAddr d)
    HostConf.fields where
  realised := HostConf.keys_realise order inetAddr d
  placed := HostConf.settings_placed order inetAddr d
  nodup := HostConf.settings_nodup order inetAddr d
  inside := forall_of_shape (HostConf.settings_shape order inetAddr d)
    (P := fun shape => ∀ p ∈ shape.2.1, p.offset + p.width ≤ HostConf.size p.obj) (by decide)
  apart := forall_of_shape (HostConf.settings_shape order inetAddr d)
    (P := fun shape => ∀ p ∈ shape.2.1, ∀ field ∈ HostConf.fields, field ∉ shape.2.1 →
      p.Apart field) (by decide)
  separate setting member := forall_of_shape (HostConf.settings_shape order inetAddr d)
    (P := fun shape => setting.name ≠ shape.1 → ∀ p ∈ setting.own, ∀ q ∈ shape.2.1, p.Apart q)
    (fun other inside => forall_of_shape (HostConf.settings_shape order inetAddr d)
      (P := fun shape => shape.1 ≠ other.name → ∀ p ∈ shape.2.1, ∀ q ∈ other.own, p.Apart q)
      (fun setting member => by revert setting other; decide) setting member)
  copies := HostConf.settings_copy order inetAddr d
  followed := forall_of_shape (HostConf.settings_shape order inetAddr d)
    (P := fun shape => ∀ p ∈ shape.2.1, shape.2.2 = some p.width →
      ∃ field ∈ HostConf.fields, field ∉ shape.2.1 ∧ field.obj = p.obj ∧
        field.offset = p.offset + p.width ∧ 0 < field.width) (by decide)

theorem vmct_layout : Layout (VmctConf.keys order inetAddr d) (VmctConf.settings order inetAddr d)
    VmctConf.fields where
  realised := VmctConf.keys_realise order inetAddr d
  placed := VmctConf.settings_placed order inetAddr d
  nodup := VmctConf.settings_nodup order inetAddr d
  inside := forall_of_shape (VmctConf.settings_shape order inetAddr d)
    (P := fun shape => ∀ p ∈ shape.2.1, p.offset + p.width ≤ VmctConf.size p.obj) (by decide)
  apart := forall_of_shape (VmctConf.settings_shape order inetAddr d)
    (P := fun shape => ∀ p ∈ shape.2.1, ∀ field ∈ VmctConf.fields, field ∉ shape.2.1 →
      p.Apart field) (by decide)
  separate setting member := forall_of_shape (VmctConf.settings_shape order inetAddr d)
    (P := fun shape => setting.name ≠ shape.1 → ∀ p ∈ setting.own, ∀ q ∈ shape.2.1, p.Apart q)
    (fun other inside => forall_of_shape (VmctConf.settings_shape order inetAddr d)
      (P := fun shape => shape.1 ≠ other.name → ∀ p ∈ shape.2.1, ∀ q ∈ other.own, p.Apart q)
      (fun setting member => by revert setting other; decide) setting member)
  copies := VmctConf.settings_copy order inetAddr d
  followed := forall_of_shape (VmctConf.settings_shape order inetAddr d)
    (P := fun shape => ∀ p ∈ shape.2.1, shape.2.2 = some p.width →
      ∃ field ∈ VmctConf.fields, field ∉ shape.2.1 ∧ field.obj = p.obj ∧
        field.offset = p.offset + p.width ∧ 0 < field.width) (by decide)

/-- Setting a key changes its own fields only exactly when the value fits; and where all do, the
order of the lines of a file with distinct keys makes no difference. -/
theorem gettoken_frame {value : List UInt8} (text : (0 : UInt8) ∉ value) :
    (∀ name, KeepsOthers (HostConf.keys order inetAddr d) (HostConf.settings order inetAddr d)
        HostConf.fields name value ↔ Fits (HostConf.settings order inetAddr d) name value) ∧
    (∀ name, KeepsOthers (VmctConf.keys order inetAddr d) (VmctConf.settings order inetAddr d)
        VmctConf.fields name value ↔ Fits (VmctConf.settings order inetAddr d) name value) ∧
    (∀ f g, (f.splitOn newline).Perm (g.splitOn newline) →
      (DistinctKeys HostConf.strSize f →
        AllFit (HostConf.settings order inetAddr d) HostConf.strSize f → ∀ c,
          HostConf.readConfig order inetAddr d c (some f) =
            HostConf.readConfig order inetAddr d c (some g)) ∧
      (DistinctKeys VmctConf.strSize f →
        AllFit (VmctConf.settings order inetAddr d) VmctConf.strSize f → ∀ c processes,
          VmctProcess.readConfig order inetAddr d c (some f) processes =
            VmctProcess.readConfig order inetAddr d c (some g) processes)) := by
  refine ⟨fun name => keepsOthers_iff (host_layout order inetAddr d) text,
    fun name => keepsOthers_iff (vmct_layout order inetAddr d) text, fun f g perm => ⟨?_, ?_⟩⟩
  · intro distinct fits c
    exact congrArg (Option.map _)
      (readLines_perm (host_layout order inetAddr d) perm distinct fits c)
  · intro distinct fits c processes
    rw [VmctProcess.readConfig, VmctProcess.readConfig,
      readLines_perm (vmct_layout order inetAddr d) perm distinct fits c]

end Programs

/-- A password that fills its field. -/
theorem gettoken_frame_password :
    KeepsOthers (HostConf.keys .little (fun _ => 0) 0) (HostConf.settings .little (fun _ => 0) 0)
      HostConf.fields (chars "NOVA_DB_PASSWORD") (chars "0123456789abcdef0123456789abcde") :=
  ((gettoken_frame .little (fun _ => 0) 0 (by decide)).1 (chars "NOVA_DB_PASSWORD")).mpr
    (by unfold Fits; decide)

/-- One more character does not fit. -/
theorem gettoken_overruns :
    ¬ KeepsOthers (HostConf.keys .little (fun _ => 0) 0) (HostConf.settings .little (fun _ => 0) 0)
      HostConf.fields (chars "NOVA_DB_PASSWORD") (chars "0123456789abcdef0123456789abcdef") := by
  rw [keepsOthers_iff (host_layout .little (fun _ => 0) 0) (by decide)]
  unfold Fits
  decide

end VnfMonitoring.ConfFrame
