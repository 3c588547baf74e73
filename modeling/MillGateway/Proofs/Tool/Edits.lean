import MillGateway.Console.Session
import MillGateway.Proofs.Crowd.Play
import MillGateway.Proofs.Crowd.Serial
import MillGateway.Proofs.Tool.Store

/-! Calls on one tool table side by side. Main statement: they come out as if the edits were made one
after another, and tool numbers stay apart. -/

namespace MillGateway.Tool

open Job Crowd

inductive Call where
  | read
  | add (r : Record)
  | remove (ns : List Int)
  | update (rs : List Record)

inductive Outcome where
  | tools (rs : List Record)
  | added (a : Added)
  | rewritten

namespace Call

def job (table : Path) : Call → Job (Except Error Outcome)
  | .read => (·.map .tools) <$> Store.read table
  | .add r => (·.map .added) <$> Store.add table r
  | .remove ns => (·.map fun _ => .rewritten) <$> Store.remove table ns
  | .update rs => (·.map fun _ => .rewritten) <$> Store.update table rs

def isRead : Call → Bool
  | .read => true
  | .add _ | .remove _ | .update _ => false

def isAdd : Call → Bool
  | .add _ => true
  | .read | .remove _ | .update _ => false

def phase (c : Call) : EditPhase :=
  if c.isRead then .reading else .before

theorem phase_cases (c : Call) : c.phase = .reading ∨ c.phase = .before := by
  rw [phase]
  split
  · exact .inl rfl
  · exact .inr rfl

end Call

namespace Store

/-! ### The lock of edits -/

section

variable {table : Path}

theorem keeps_freed (a : α) : (freed a).Keeps EditStep EditEnd .inside :=
  fun _ => ⟨.finished, .give, nofun⟩

theorem keeps_withText {k : String → Job (Except Error α)}
    (hk : ∀ text, (k text).Keeps EditStep EditEnd .inside) (x : Except FileError String) :
    (withText table k x).Keeps EditStep EditEnd .inside := by
  rw [withText.eq_def]
  split
  · exact hk _
  · exact hk ""
  · exact keeps_freed _

theorem keeps_rewritten (s : String) :
    (rewritten table s).Keeps EditStep EditEnd .inside :=
  fun _ => ⟨.inside, .access, keeps_freed _⟩

theorem keeps_backedUp (text : String) {k : Job (Except Error Unit)}
    (hk : k.Keeps EditStep EditEnd .inside) :
    (backedUp table text k).Keeps EditStep EditEnd .inside := by
  refine fun x => ⟨.inside, .access, ?_⟩
  cases x with
  | error e => exact keeps_freed _
  | ok => exact hk

theorem keeps_appendedTo (r : Record) (n : Int) (text : String) :
    (appendedTo table r n text).Keeps EditStep EditEnd .inside := by
  rw [appendedTo]
  split
  · exact keeps_freed _
  · split
    · exact keeps_freed _
    · exact fun _ => ⟨.inside, .access, keeps_freed _⟩

theorem keeps_read : (read table).Keeps EditStep EditEnd .reading :=
  fun _ => ⟨.reading, .read, nofun⟩

theorem keeps_add (r : Record) : (add table r).Keeps EditStep EditEnd .before := by
  cases hr : r.validate with
  | error e =>
    rw [add_eq_error hr]
    exact nofun
  | ok n =>
    rw [add_eq hr]
    exact fun _ => ⟨.inside, .take, fun x => ⟨.inside, .access,
      keeps_withText (keeps_appendedTo r n) x⟩⟩

theorem keeps_remove (ns : List Int) : (remove table ns).Keeps EditStep EditEnd .before := by
  rw [remove_eq]
  refine fun _ => ⟨.inside, .take, fun x => ⟨.inside, .access, ?_⟩⟩
  cases x with
  | error e => exact keeps_freed _
  | ok text =>
    refine keeps_backedUp text ?_
    split
    · exact keeps_freed _
    · exact keeps_rewritten _

theorem keeps_update (rs : List Record) : (update table rs).Keeps EditStep EditEnd .before := by
  cases hrs : validateAll [] rs with
  | error e =>
    rw [update_eq_error hrs]
    exact nofun
  | ok =>
    rw [update_eq hrs]
    exact fun _ => ⟨.inside, .take, fun x => ⟨.inside, .access,
      keeps_withText (fun text => keeps_backedUp text (keeps_rewritten _)) x⟩⟩

theorem keeps_job (table : Path) (c : Call) :
    (c.job table).Keeps EditStep EditEnd c.phase := by
  cases c with
  | read =>
    apply Keeps.map
    exact keeps_read
  | add r =>
    apply Keeps.map
    exact keeps_add r
  | remove ns =>
    apply Keeps.map
    exact keeps_remove ns
  | update rs =>
    apply Keeps.map
    exact keeps_update rs

end

/-! ### Tool numbers -/

def Unique (table : Path) (t : FileTree) : Prop :=
  ∀ text, t.read table = .ok text → (Table.numbers text).Nodup

def Has (table : Path) (n : Int) (t : FileTree) : Prop :=
  ∃ text, t.read table = .ok text ∧ Table.hasNumber n text = true

section

variable {table : Path} {t t' : FileTree} {ms : List (Option Mishap)}

theorem Unique.of_sees {text : String} (h : Unique table t) (hsees : Sees table t text) :
    (Table.numbers text).Nodup := by
  rcases hsees with hread | ⟨-, rfl⟩
  · exact h text hread
  · exact .nil

theorem unique_of_changed {p : Path} (h : Unique table t) (hput : t.Changed false p t') :
    Unique table t' := by
  rw [hput.eq]
  exact h

theorem unique_of_copy {p : Path} {text : String} (h : Unique table t) (hsees : Sees table t text)
    (hput : t.Puts p (.text text) t') : Unique table t' := by
  intro text' hread
  rw [FileTree.read_eq_ok_iff] at hread
  rcases hput.content_other rfl table with hother | hother
  · exact h text' (FileTree.read_eq_ok_iff.2 (hother ▸ hread))
  · rw [hother] at hread
    cases hread
    exact h.of_sees hsees

theorem unique_of_read {text : String} (hread : t.read table = .ok text)
    (h : (Table.numbers text).Nodup) : Unique table t := by
  intro text' hread'
  rw [hread] at hread'
  cases hread'
  exact h

theorem numbers_append_entry (text : String) {r : Record} {n : Int} (hr : r.validate = .ok n) :
    Table.numbers (text ++ Table.entry text r) = Table.numbers text ++ [n] := by
  rw [Table.numbers_eq, Table.records_append_entry text (Record.sound_of_validate hr),
    List.filterMap_append, ← Table.numbers_eq,
    List.filterMap_cons_some ((Record.toolNumber_norm r).trans (Record.validate_eq_ok_iff.1 hr).1),
    List.filterMap_nil]

theorem AddMoment.unique {r : Record} {j : Job (Except Error Added)}
    (h : AddMoment false table r t j t') (ht : Unique table t) : Unique table t' := by
  cases h with
  | refused | reading | unread | «exists» | empty | appending => exact ht
  | unwritten e hput => exact unique_of_changed ht hput
  | @added n text _ hr hsees hn hread _ =>
    refine unique_of_read hread ?_
    rw [numbers_append_entry text hr, List.nodup_append]
    refine ⟨ht.of_sees hsees, List.pairwise_singleton _ n, fun a ha b hb hab => ?_⟩
    have hmem : n ∈ Table.numbers text := by rwa [← List.mem_singleton.1 hb, ← hab]
    rw [← Table.hasNumber_iff, hn] at hmem
    cases hmem

theorem RewriteMoment.unique {early : Error → Prop} {sees : String → Prop}
    {next? : String → Option String} {j : Job (Except Error Unit)}
    (hsees : ∀ text, sees text → Sees table t text)
    (hnext : ∀ text s, sees text → next? text = some s → (Table.numbers s).Nodup)
    (h : RewriteMoment false table early sees next? t j t') (ht : Unique table t) :
    Unique table t' := by
  cases h with
  | refused | reading | unread | saving => exact ht
  | unsaved e hput => exact unique_of_changed ht hput
  | skipped hs hput _ => exact unique_of_copy ht (hsees _ hs) hput
  | writing hs hput _ _ => exact unique_of_copy ht (hsees _ hs) hput
  | unwritten hs hput e hput' => exact unique_of_changed (unique_of_copy ht (hsees _ hs) hput) hput'
  | written hs hput hsome hput' => exact unique_of_read (read_of_put hput') (hnext _ _ hs hsome)

theorem AddMoment.has {r : Record} {j : Job (Except Error Added)} {n : Int}
    (h : AddMoment false table r t j t') (ht : Has table n t) : Has table n t' := by
  cases h with
  | refused | reading | unread | «exists» | empty | appending => exact ht
  | unwritten e hput =>
    rw [hput.eq]
    exact ht
  | @added n' text' _ hr hsees hn hread _ =>
    obtain ⟨text, htext, hnum⟩ := ht
    obtain rfl := hsees.eq_of_read htext
    refine ⟨_, hread, ?_⟩
    rw [Table.hasNumber_iff] at hnum ⊢
    rw [numbers_append_entry _ hr]
    exact List.mem_append_left _ hnum

theorem always_read (tearing : Bool) (table : Path) (t : FileTree) :
    Always tearing (fun _ t' => t' = t) (read table) t :=
  always_outside rfl fun _ _ _ _ hacc => always_done (FileTree.access_readText hacc).1

theorem nodup_without {text : String} (h : (Table.numbers text).Nodup) (ns : List Int) :
    (Table.numbers (Table.without ns text)).Nodup := by
  rw [Table.numbers_eq, Table.records_without]
  rw [Table.numbers_eq] at h
  exact h.sublist (List.filter_sublist.filterMap _)

theorem nodup_ofRecords {rs : List Record} (h : validateAll [] rs = .ok ()) :
    (Table.numbers (Table.ofRecords rs)).Nodup := by
  obtain ⟨hsound, hnodup, -⟩ := sound_of_validateAll h
  have hnumbers : rs.filterMap (Record.toolNumber ∘ Record.norm) = rs.filterMap Record.toolNumber :=
    List.filterMap_congr fun r _ => Record.toolNumber_norm r
  rwa [Table.numbers_eq, Table.records_ofRecords hsound, List.filterMap_map, hnumbers]

theorem unique_after (c : Call) (hms : ∀ m? ∈ ms, Mishap.Admitted false m?)
    (h : Unique table t) : Unique table ((c.job table).after t ms).2 := by
  cases c with
  | read =>
    rw [Call.job, after_map]
    change Unique table ((read table).after t ms).2
    rw [always_read false table t ms hms]
    exact h
  | add r =>
    rw [Call.job, after_map]
    exact (always_add false table r t ms hms).unique h
  | remove ns =>
    rw [Call.job, after_map]
    refine (always_remove false table ns t ms hms).unique (fun _ => .inl) ?_ h
    intro text s hread hnext
    rw [withoutUnlessSkipped] at hnext
    split at hnext
    · cases hnext
    · cases hnext
      exact nodup_without (h text hread) ns
  | update rs =>
    rw [Call.job, after_map]
    cases hrs : validateAll [] rs with
    | error e =>
      rw [update_eq_error hrs, after_done]
      exact h
    | ok =>
      refine (always_update false table rs t ms hms).unique (fun _ => id) ?_ h
      intro text s _ hnext
      cases hnext
      exact nodup_ofRecords hrs

theorem has_after {c : Call} (hc : c.isAdd = true) (hms : ∀ m? ∈ ms, Mishap.Admitted false m?)
    {n : Int} (h : Has table n t) : Has table n ((c.job table).after t ms).2 := by
  cases c with
  | add r =>
    rw [Call.job, after_map]
    exact (always_add false table r t ms hms).has h
  | read | remove | update => cases hc

theorem not_done_of_valid {r : Record} {n : Int} (hr : r.validate = .ok n)
    (x : Except Error Outcome) : (Call.add r).job table ≠ .done x := by
  intro h
  unfold Call.job at h
  obtain ⟨y, hy, -⟩ := map_eq_done.1 h
  rw [add_eq hr] at hy
  cases hy

theorem of_added {r : Record} {n : Int} (hr : r.validate = .ok n)
    (hms : ∀ m? ∈ ms, Mishap.Admitted false m?)
    (h : ((Call.add r).job table).after t ms = (.done (.ok (.added .added)), t')) :
    ¬ Has table n t ∧ Has table n t' := by
  rw [Call.job, after_map] at h
  obtain ⟨hdone, ht'⟩ := Prod.mk.inj h
  obtain ⟨x, hx, hok⟩ := map_eq_done.1 hdone
  have hmoment := always_add false table r t ms hms
  rw [hx, ht'] at hmoment
  cases hmoment with
  | refused | unread | empty | unwritten => cases hok
  | «exists» => cases hok
  | @added n' text _ hr' hsees hn hread _ =>
    rw [hr] at hr'
    cases hr'
    refine ⟨?_, _, hread, ?_⟩
    · rintro ⟨text', hread', hn'⟩
      obtain rfl := hsees.eq_of_read hread'
      rw [hn] at hn'
      cases hn'
    · rw [Table.hasNumber_iff, numbers_append_entry text hr]
      exact List.mem_append_right _ List.mem_cons_self

end

/-! ### Calls side by side -/

section

variable [DecidableEq ω] {observers : Observers ω ε} {table : Path} {calls : TaskId → Call}
  {s₀ s : Crowd (Except Error Outcome) FileTree ω ε} {es : List (Crowd.Event (Option FileError))}
  {start ph : TaskId → EditPhase}

def crowdOf (observers : Observers ω ε) (table : Path) (calls : TaskId → Call) :
    Rules (Except Error Outcome) FileTree (Option FileError) ω ε :=
  onFiles observers fun i => (calls i).job table

def inTurn (table : Path) (calls : TaskId → Call) (es : List (Crowd.Event (Option FileError)))
    (t : FileTree) (is : List TaskId) : FileTree :=
  serial (fun i => (calls i).job table) (mishaps es) t is

theorem unique_inTurn (es : List (Crowd.Event (Option FileError))) (is : List TaskId) {t : FileTree}
    (h : Unique table t) : Unique table (inTurn table calls es t is) := by
  apply serial_induction _ h
  intro i _ t ht
  exact unique_after (calls i) (mishaps_admitted es i) ht

omit [DecidableEq ω] in
/-- Of two tasks that add a tool of one number, the later one finds it if only tools are added. -/
theorem not_added_twice (h : Serialized (fun i => (calls i).job table) start s₀.world es s ph)
    {n : Int} {r r' : Record} (hr : r.validate = .ok n) (hr' : r'.validate = .ok n)
    {i i' : TaskId} {xs ys zs : List TaskId} (horder : order es = xs ++ i :: (ys ++ i' :: zs))
    (hys : ∀ i ∈ ys, (calls i).isAdd = true) (hi : calls i = .add r) (hi' : calls i' = .add r')
    (hj : s.jobAt i = some (.done (.ok (.added .added)))) :
    s.jobAt i' ≠ some (.done (.ok (.added .added))) := by
  intro hj'
  have hms := mishaps_admitted es
  obtain ⟨j, hplace, hfirst⟩ := h.places xs i _ horder
  rw [hj] at hplace
  cases hplace
  have horder' : order es = (xs ++ [i] ++ ys) ++ i' :: zs := by simp [horder]
  obtain ⟨j, hplace, hsecond⟩ := h.places _ i' zs horder'
  rw [hj'] at hplace
  cases hplace
  -- after the first of the two the table has the number, and keeps it up to the second
  have hhas : Has table n (inTurn table calls es s₀.world (xs ++ [i])) := by
    unfold inTurn
    rw [serial_snoc]
    simp only [hi] at hfirst ⊢
    exact (of_added hr (hms i) (Prod.ext hfirst rfl)).2
  have hstill : Has table n (inTurn table calls es s₀.world (xs ++ [i] ++ ys)) := by
    unfold inTurn
    rw [serial_append]
    apply serial_induction _ hhas
    intro i'' hmem t ht
    exact has_after (hys i'' hmem) (hms i'') ht
  simp only [hi'] at hsecond
  exact (of_added hr' (hms i') (Prod.ext hsecond rfl)).1 hstill

/-- However calls on one table come on side by side: edits that took the lock have come out, and have
left the files, as if they had been made one after another in that order, each access faring as it
did; those that did not were refused. No table with two tools of one number arises, and of several
tasks that add a tool of one number one at most does, as long as nobody takes tools out. -/
theorem edits_serializable (hs₀ : s₀.Fresh) (h : Run (crowdOf observers table calls) s₀ es s) :
    (order es).Nodup ∧ s.world = inTurn table calls es s₀.world (order es) ∧
    (∀ i a, (calls i).isRead = false → s.jobAt i = some (.done a) →
      (∃ is rest, order es = is ++ i :: rest ∧
        ((calls i).job table).after (inTurn table calls es s₀.world is) (mishaps es i) =
          (.done a, inTurn table calls es s₀.world (is ++ [i]))) ∨
      i ∉ order es ∧ (calls i).job table = .done a) ∧
    (Unique table s₀.world → Unique table s.world) ∧
    ((∀ i ∈ order es, (calls i).isAdd = true) →
      ∀ i i' r r' n, i ≠ i' → calls i = .add r → calls i' = .add r' → r.validate = .ok n →
        r'.validate = .ok n → s.jobAt i = some (.done (.ok (.added .added))) →
        s.jobAt i' ≠ some (.done (.ok (.added .added)))) := by
  obtain ⟨ph, hserial⟩ := Serialized.of_run (fun i => keeps_job table (calls i))
    (fun i => (calls i).phase_cases) hs₀ h
  have hbefore : ∀ i, (calls i).isRead = false → (calls i).phase = .before := by
    intro i hi
    unfold Call.phase
    simp [hi]
  refine ⟨hserial.ordered.nodup, hserial.world, ?_, ?_, ?_⟩
  · intro i a hi hj
    exact hserial.of_done (hbefore i hi) hj
  · intro hunique
    rw [hserial.world]
    exact unique_inTurn es (order es) hunique
  · intro honly i i' r r' n hne hi hi' hr hr' hj hj'
    have hadds : ∀ i, (∃ r, calls i = .add r ∧ r.validate = .ok n) →
        s.jobAt i = some (.done (.ok (.added .added))) → i ∈ order es := by
      rintro i ⟨r, hi, hr⟩ hj
      rcases hserial.of_done (hbefore i (by simp [hi, Call.isRead])) hj with
        ⟨is, rest, his, -⟩ | ⟨-, hdone⟩
      · simp [his]
      · rw [hi] at hdone
        exact absurd hdone (not_done_of_valid hr _)
    obtain ⟨is, rest, his⟩ := List.append_of_mem (hadds i ⟨r, hi, hr⟩ hj)
    have hmem := hadds i' ⟨r', hi', hr'⟩ hj'
    rw [his] at hmem
    -- whichever of the two came later found the tool of the other
    rcases List.mem_append.1 hmem with hmem | hmem
    · obtain ⟨xs, ys, rfl⟩ := List.append_of_mem hmem
      have horder : order es = xs ++ i' :: (ys ++ i :: rest) := by simp [his]
      have hys : ∀ i ∈ ys, (calls i).isAdd = true := fun i hmem => honly i (by simp [horder, hmem])
      exact not_added_twice hserial hr' hr horder hys hi' hi hj' hj
    · obtain ⟨ys, zs, rfl⟩ := List.append_of_mem (List.mem_of_ne_of_mem hne.symm hmem)
      have hys : ∀ i ∈ ys, (calls i).isAdd = true := fun i hmem => honly i (by simp [his, hmem])
      exact not_added_twice hserial hr hr' his hys hi hi' hj hj'

end

theorem edits_serializable_two_adds :
    ∃ (es : List (Crowd.Event (Option FileError)))
      (s : Crowd (Except Error Outcome) FileTree Empty Unit),
      Run (crowdOf Observers.nobody ⟨"tool.tbl"⟩ fun _ => .add (Record.empty.set .t "1"))
        { gateway := { left := () }, world := {} } es s ∧
      order es = [0, 1] ∧
      s.world = inTurn ⟨"tool.tbl"⟩ (fun _ => .add (Record.empty.set .t "1")) es {} [0, 1] := by
  have horder : (play? (crowdOf Observers.nobody ⟨"tool.tbl"⟩ fun _ =>
        .add (Record.empty.set .t "1"))
      [.start 0, .start 1, .go 0 none, .go 1 none, .go 0 none, .go 0 none, .go 0 none, .go 0 none,
        .go 0 none, .go 1 none, .go 1 none, .go 1 none, .go 1 none]
      ([], { gateway := { left := () }, world := {} })).map (fun x => order x.1) =
        some [0, 1] := by decide +kernel
  obtain ⟨⟨es, s⟩, hplay, horder⟩ := Option.map_eq_some_iff.1 horder
  have hrun := run_of_play? .nil hplay
  obtain ⟨-, hworld, -⟩ := edits_serializable ⟨rfl, rfl⟩ hrun
  exact ⟨es, s, hrun, horder, horder ▸ hworld⟩

end Store

end MillGateway.Tool
