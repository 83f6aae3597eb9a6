-- Where paths lead. Every place that a walk reaches is firm: directories lead to it, none of them
-- and nothing at its end a link. So the path that is written down for it, from the root and without
-- links and dots, leads there again and follows no link.
import EngineBench.Host.Search
import EngineBench.Proofs.Sightings

namespace EngineBench.Host

/-! ## Names in a path -/

/-- A name that a file or directory can have. -/
structure IsProper (name : String) : Prop where
  nonempty : name ≠ ""
  not_here : name ≠ "."
  not_parent : name ≠ ".."
  no_slash : '/' ∉ name.toList
  no_nul : '\x00' ∉ name.toList
  fits : name.utf8ByteSize ≤ Files.nameLimit

instance (name : String) : Decidable (IsProper name) :=
  decidable_of_iff (name ≠ "" ∧ name ≠ "." ∧ name ≠ ".." ∧ '/' ∉ name.toList ∧
    '\x00' ∉ name.toList ∧ name.utf8ByteSize ≤ Files.nameLimit)
    ⟨fun ⟨h1, h2, h3, h4, h5, h6⟩ => ⟨h1, h2, h3, h4, h5, h6⟩,
      fun ⟨h1, h2, h3, h4, h5, h6⟩ => ⟨h1, h2, h3, h4, h5, h6⟩⟩

/-- Names with a slash in front of each of them. -/
def slashed (ns : List String) : List Char := ns.flatMap fun n => '/' :: n.toList

theorem slashed_append (ms ns : List String) : slashed (ms ++ ns) = slashed ms ++ slashed ns :=
  List.flatMap_append

theorem cut_ne_nil (s : List Char) : names.cut s ≠ [] := by
  cases s with
  | nil => simp [names.cut]
  | cons c s =>
    rw [names.cut]
    split
    · simp
    · cases names.cut s <;> simp [Text.openColumn]

/-- The pieces before a slash and those behind it have nothing to do with each other. -/
theorem cut_append_slash (s t : List Char) :
    names.cut (s ++ '/' :: t) = names.cut s ++ names.cut t := by
  induction s with
  | nil => rfl
  | cons c s ih =>
    rw [List.cons_append, names.cut, names.cut, ih]
    split
    · rfl
    · exact Text.openColumn_append c (cut_ne_nil s) _

theorem cut_of_noSlash {n : List Char} (h : '/' ∉ n) : names.cut n = [n] := by
  induction n with
  | nil => rfl
  | cons c n ih =>
    obtain ⟨hc, hn⟩ := not_or.mp (mt List.mem_cons.mpr h)
    rw [names.cut, if_neg (Ne.symm hc), ih hn]
    rfl

theorem cut_slashed {ns : List String} (hns : ∀ n ∈ ns, IsProper n) {front : List Char}
    (hfront : '/' ∉ front) :
    names.cut (front ++ slashed ns) = front :: ns.map String.toList := by
  induction ns generalizing front with
  | nil => simpa [slashed] using cut_of_noSlash hfront
  | cons n ns ih =>
    obtain ⟨hn, hns⟩ := List.forall_mem_cons.mp hns
    show names.cut (front ++ '/' :: (n.toList ++ slashed ns)) = _
    rw [cut_append_slash, cut_of_noSlash hfront, ih hns hn.no_slash]
    rfl

/-- Pieces that are names stay what they are, and nothing between two slashes is dropped. -/
theorem names_of_cut {s : List Char} {ns : List String} (hns : ∀ n ∈ ns, IsProper n)
    (hcut : names.cut s = ns.map String.toList ∨ names.cut s = [] :: ns.map String.toList) :
    names s = ns := by
  have hnonempty : ∀ x ∈ ns.map String.toList, x ≠ [] := by
    intro x hx
    obtain ⟨n, hn, rfl⟩ := List.mem_map.mp hx
    exact fun hnil => (hns n hn).nonempty (String.toList_eq_nil_iff.mp hnil)
  have hfilter : (names.cut s).filter (· ≠ []) = ns.map String.toList := by
    rcases hcut with hcut | hcut <;> rw [hcut]
    · exact List.filter_eq_self.mpr fun x hx => by simpa using hnonempty x hx
    · rw [List.filter_cons_of_neg (by simp)]
      exact List.filter_eq_self.mpr fun x hx => by simpa using hnonempty x hx
  have hlast : (!(ns.map String.toList).isEmpty && (names.cut s).getLast? == some []) = false := by
    by_cases hnone : ns = []
    · simp [hnone]
    · have hmap : ns.map String.toList ≠ [] := by simpa using hnone
      have hends : (names.cut s).getLast? = (ns.map String.toList).getLast? := by
        rcases hcut with hcut | hcut <;> rw [hcut]
        rw [List.getLast?_cons, List.getLast?_eq_some_getLast hmap]
        rfl
      have hname : ((ns.map String.toList).getLast? == some []) = false := by
        rw [List.getLast?_eq_some_getLast hmap]
        simpa using hnonempty _ (List.getLast_mem hmap)
      rw [hends, hname, Bool.and_false]
  rw [names]
  simp only [hfilter, hlast]
  rw [if_neg (by simp), List.map_map]
  simp

theorem names_slashed {ns : List String} (hns : ∀ n ∈ ns, IsProper n) :
    names (slashed ns) = ns := by
  apply names_of_cut hns (Or.inr _)
  rw [← List.nil_append (slashed ns)]
  exact cut_slashed hns List.not_mem_nil

theorem names_of_slashed_tail {n : String} {ns : List String} (hns : ∀ m ∈ n :: ns, IsProper m) :
    names (n.toList ++ slashed ns) = n :: ns := by
  obtain ⟨hn, hrest⟩ := List.forall_mem_cons.mp hns
  exact names_of_cut hns (.inl (cut_slashed hrest hn.no_slash))

/-- A slash at the end stands for the directory. -/
theorem names_of_slash (s : List Char) :
    names (s ++ ['/']) = [] ∨ ∃ ns, names (s ++ ['/']) = ns ++ ["."] := by
  have hlast : (names.cut (s ++ ['/'])).getLast? = some [] := by
    rw [cut_append_slash]
    simp [names.cut]
  rw [names]
  simp only [hlast, beq_self_eq_true, Bool.and_true]
  split
  · right
    rw [List.map_append]
    exact ⟨_, rfl⟩
  · next hnone =>
    left
    have hempty : (names.cut (s ++ ['/'])).filter (· ≠ []) = [] := by simpa using hnone
    rw [hempty]
    rfl

theorem toList_intercalate_slash (s : String) (ns : List String) :
    (String.intercalate "/" (s :: ns)).toList = s.toList ++ slashed ns := by
  rw [String.toList_intercalate, List.map_cons]
  generalize s.toList = front
  induction ns generalizing front with
  | nil => simp [slashed]
  | cons n ns ih =>
    rw [List.map_cons, List.intercalate_cons_cons, ih]
    simp [slashed]

namespace Files

/-! ## Firm places -/

/-- The files of a host as they can be: the path of the top directory runs from the root over
proper names, and so does the way to everything below it. -/
structure IsSound (f : Files) : Prop where
  base : ∃ ns, (∀ n ∈ ns, IsProper n) ∧ f.base.toList = slashed ns
  nodes : ∀ e ∈ f.nodes, ∀ n ∈ e.1, IsProper n

variable {f : Files}

theorem IsSound.base_eq (hf : f.IsSound) : f.base.toList = slashed f.top := by
  obtain ⟨ns, hns, hbase⟩ := hf.base
  rw [top, hbase, names_slashed hns]

theorem IsSound.top (hf : f.IsSound) : ∀ n ∈ f.top, IsProper n := by
  obtain ⟨ns, hns, hbase⟩ := hf.base
  rw [Files.top, hbase, names_slashed hns]
  exact hns

theorem IsSound.base_isEmpty (hf : f.IsSound) : f.base.isEmpty = true ↔ f.top = [] := by
  rw [String.isEmpty_iff, ← String.toList_eq_nil_iff, hf.base_eq]
  cases f.top <;> simp [slashed]

/-- Something is at a place, and it is no link. -/
def Holds (f : Files) (p : Place) : Prop := ∃ n, f.node? (.inside p) = some n ∧ ∀ t, n ≠ .link t

/-- Directories lead to a location, and neither it nor one of them is a link. -/
def Firm (f : Files) : Location → Prop
  | .inside p => f.Holds p ∧ ∀ q, q <+: p → q ≠ p → f.node? (.inside q) = some .dir
  | .above p => p <+: f.top ∧ p ≠ f.top

theorem firm_top (f : Files) : f.Firm (.inside []) := by
  refine ⟨⟨.dir, rfl, by simp⟩, ?_⟩
  intro q hq hne
  exact absurd (List.prefix_nil.mp hq) hne

theorem node?_snoc (f : Files) (p : Place) (name : String) :
    f.node? (.inside (p ++ [name])) = f.nodes.lookup (p ++ [name]) := by
  unfold node?
  split
  · next h => simp at h
  · next h => cases h; rfl
  · next h => cases h

theorem dropLast_ne {p : Place} (hp : p ≠ []) : p.dropLast ≠ p := by
  intro he
  have hlength := congrArg List.length he
  have hpos := List.length_pos_iff.mpr hp
  rw [List.length_dropLast] at hlength
  omega

theorem Firm.of_initial {p q : Place} (h : f.Firm (.inside p)) (hq : q <+: p) :
    f.Firm (.inside q) := by
  by_cases hqp : q = p
  · rwa [hqp]
  · refine ⟨⟨.dir, h.2 q hq hqp, by simp⟩, ?_⟩
    intro r hr hne
    apply h.2 r (hr.trans hq)
    rintro rfl
    exact hne (hr.eq_of_length_le hq.length_le)

/-- A step into a directory leads on if there is something of that name that is no link. -/
theorem Firm.snoc {p : Place} {name : String} {n : Node} (h : f.Firm (.inside p))
    (hdir : f.isDirectory (.inside p) = true) (hn : f.nodes.lookup (p ++ [name]) = some n)
    (hlink : ∀ t, n ≠ .link t) : f.Firm (.inside (p ++ [name])) := by
  refine ⟨⟨n, (f.node?_snoc p name).trans hn, hlink⟩, ?_⟩
  intro q hq hne
  rcases List.prefix_concat_iff.mp hq with rfl | hq
  · exact absurd rfl hne
  · by_cases hqp : q = p
    · subst hqp
      exact eq_of_beq hdir
    · exact h.2 q hq hqp

theorem firm_parent (hf : f.IsSound) {l : Location} (h : f.Firm l) : f.Firm (f.parent l) := by
  cases l with
  | inside p =>
    cases p with
    | nil =>
      rw [parent]
      by_cases hbase : f.base.isEmpty = true
      · rw [if_pos hbase]
        exact h
      · rw [if_neg hbase]
        have htop : f.top ≠ [] := mt hf.base_isEmpty.mpr hbase
        exact ⟨List.dropLast_prefix _, dropLast_ne htop⟩
    | cons name p => exact h.of_initial (List.dropLast_prefix _)
  | above p =>
    refine ⟨(List.dropLast_prefix p).trans h.1, ?_⟩
    intro he
    have hle : f.top.length ≤ p.length := by
      rw [← he]
      simp
    exact h.2 (h.1.eq_of_length_le hle)

theorem firm_start (hf : f.IsSound) {l : Location} (h : f.Firm l) (path : List Char) :
    f.Firm (f.start l path).1 := by
  unfold start
  cases hafter : Text.after (f.base.toList ++ ['/']) path with
  | some rest => exact f.firm_top
  | none =>
    dsimp only
    split
    · next hslash =>
      refine ⟨List.nil_prefix, ?_⟩
      intro htop
      rw [hf.base_eq, ← htop] at hafter
      cases path with
      | nil => cases hslash
      | cons c path =>
        have hc : c = '/' := by simpa using hslash
        simp [slashed, Text.after, hc] at hafter
    · exact h

/-! ## Walks -/

/-- Where one name leads from a directory, if it is not that of a link. -/
inductive Leads (f : Files) : Location → String → Location → Prop
  | here {l : Location} : Leads f l "." l
  | up {l : Location} : Leads f l ".." (f.parent l)
  | toTop {p : Place} {name : String} (h : p ++ [name] = f.top) :
    Leads f (.above p) name (.inside [])
  | towardsTop {p : Place} {name : String} (h : p ++ [name] <+: f.top) (hne : p ++ [name] ≠ f.top) :
    Leads f (.above p) name (.above (p ++ [name]))
  | down {p : Place} {name : String} {n : Node} (hn : f.nodes.lookup (p ++ [name]) = some n)
    (hlink : ∀ t, n ≠ .link t) : Leads f (.inside p) name (.inside (p ++ [name]))

/-- A walk goes where its first name leads, or that is the name of a link, which is followed. -/
theorem step_cons_cases {follow : Location → List String → Except OsError Location}
    {l l' : Location} {name : String} {rest : List String}
    (h : f.step follow l (name :: rest) = .ok l') :
    f.isDirectory l = true ∧
      ((∃ m, f.Leads l name m ∧ f.step follow m rest = .ok l') ∨
        ∃ target, follow (f.start l target).1 ((f.start l target).2 ++ rest) = .ok l') := by
  rw [step.eq_def] at h
  dsimp only at h
  split at h
  · cases h
  next hdir =>
  refine ⟨by simpa using hdir, ?_⟩
  split at h
  · next hhere =>
    rw [eq_of_beq hhere]
    exact .inl ⟨l, .here, h⟩
  split at h
  · next hup =>
    rw [eq_of_beq hup]
    exact .inl ⟨_, .up, h⟩
  split at h
  · cases h
  cases l with
  | above p =>
    dsimp only at h
    split at h
    · next htop => exact .inl ⟨_, .toTop htop, h⟩
    next hne =>
    split at h
    · next hinitial => exact .inl ⟨_, .towardsTop (List.isPrefixOf_iff_prefix.mp hinitial) hne, h⟩
    · cases h
  | inside p =>
    dsimp only at h
    split at h
    · cases h
    · split at h
      · cases h
      · exact .inr ⟨_, h⟩
    · next n hlink hlookup => exact .inl ⟨_, .down hlookup hlink, h⟩

theorem Leads.firm {l m : Location} {name : String} (h : f.Leads l name m) (hf : f.IsSound)
    (hdir : f.isDirectory l = true) (hl : f.Firm l) : f.Firm m := by
  cases h with
  | here => exact hl
  | up => exact firm_parent hf hl
  | toTop _ => exact f.firm_top
  | towardsTop hinitial hne => exact ⟨hinitial, hne⟩
  | down hn hlink => exact hl.snoc hdir hn hlink

/-- A walk goes on from firm locations to firm ones if it does so behind a link. -/
theorem firm_of_step (hf : f.IsSound) {follow : Location → List String → Except OsError Location}
    (hfollow : ∀ l way l', f.Firm l → follow l way = .ok l' → f.Firm l') {l l' : Location}
    {way : List String} (hl : f.Firm l) (h : f.step follow l way = .ok l') : f.Firm l' := by
  induction way generalizing l with
  | nil =>
    cases h
    exact hl
  | cons name rest ih =>
    obtain ⟨hdir, ⟨m, hm, hrest⟩ | ⟨target, hrest⟩⟩ := step_cons_cases h
    · exact ih (hm.firm hf hdir hl) hrest
    · exact hfollow _ _ _ (firm_start hf hl target) hrest

theorem firm_of_walk (hf : f.IsSound) {links : Nat} {l l' : Location} {way : List String}
    (hl : f.Firm l) (h : f.walk links l way = .ok l') : f.Firm l' := by
  induction links generalizing l l' way with
  | zero => exact firm_of_step hf (by simp) hl h
  | succ links ih =>
    apply firm_of_step hf _ hl h
    intro l way l' hl h
    exact ih hl h

/-- A walk that ends at a dot ends in a directory. -/
theorem isDirectory_of_step {follow : Location → List String → Except OsError Location}
    (hfollow : ∀ l way l', follow l (way ++ ["."]) = .ok l' → f.isDirectory l' = true)
    {l l' : Location} {way : List String} (h : f.step follow l (way ++ ["."]) = .ok l') :
    f.isDirectory l' = true := by
  induction way generalizing l with
  | nil =>
    -- The dot leads nowhere else, and it does so only from a directory.
    have hdir := (step_cons_cases h).1
    rw [List.nil_append, step.eq_def] at h
    dsimp only at h
    rw [if_neg (by simp [hdir]), if_pos (by simp), step] at h
    cases h
    exact hdir
  | cons name rest ih =>
    rw [List.cons_append] at h
    obtain ⟨-, ⟨m, -, hrest⟩ | ⟨target, hrest⟩⟩ := step_cons_cases h
    · exact ih hrest
    · rw [← List.append_assoc] at hrest
      exact hfollow _ _ _ hrest

theorem isDirectory_of_walk {links : Nat} {l l' : Location} {way : List String}
    (h : f.walk links l (way ++ ["."]) = .ok l') : f.isDirectory l' = true := by
  induction links generalizing l l' way with
  | zero => exact isDirectory_of_step (by simp) h
  | succ links ih =>
    apply isDirectory_of_step _ h
    intro l way l' h
    exact ih h

/-! ## Ways without links -/

section

variable {follow : Location → List String → Except OsError Location} {p way : Place}

/-- Proper names lead from a directory to a firm place below it, and no link is followed. -/
theorem step_inside (hway : ∀ n ∈ way, IsProper n) (h : f.Firm (.inside (p ++ way))) :
    f.step follow (.inside p) way = .ok (.inside (p ++ way)) := by
  induction way generalizing p with
  | nil => rw [List.append_nil, step]
  | cons name rest ih =>
    obtain ⟨hname, hrest⟩ := List.forall_mem_cons.mp hway
    have hdir : f.isDirectory (.inside p) = true := by
      have hne : p ≠ p ++ name :: rest := by simp
      exact beq_iff_eq.mpr (h.2 p (List.prefix_append _ _) hne)
    have hsplit : p ++ name :: rest = p ++ [name] ++ rest := by simp
    have hfirm : f.Firm (.inside (p ++ [name])) := h.of_initial (hsplit ▸ List.prefix_append _ _)
    obtain ⟨n, hn, hlink⟩ := hfirm.1
    rw [f.node?_snoc] at hn
    rw [step.eq_def]
    dsimp only
    rw [if_neg (by simp [hdir]), if_neg (by simpa using hname.not_here),
      if_neg (by simpa using hname.not_parent), if_neg (Nat.not_lt.mpr hname.fits), hn]
    have hnext := ih (p := p ++ [name]) hrest (hsplit ▸ h)
    cases n with
    | link target => exact absurd rfl (hlink target)
    | _ => rw [hsplit]; exact hnext

/-- So they lead from the root to a directory above the top directory, and to the top directory. -/
theorem step_above (hway : ∀ n ∈ way, IsProper n) (h : p ++ way <+: f.top) (hp : p ≠ f.top) :
    f.step follow (.above p) way =
      .ok (if p ++ way = f.top then .inside [] else .above (p ++ way)) := by
  induction way generalizing p with
  | nil => rw [List.append_nil, if_neg hp, step]
  | cons name rest ih =>
    obtain ⟨hname, hrest⟩ := List.forall_mem_cons.mp hway
    have hsplit : p ++ name :: rest = p ++ [name] ++ rest := by simp
    rw [hsplit] at h ⊢
    have hinitial : p ++ [name] <+: f.top := (List.prefix_append _ _).trans h
    have hdir : f.isDirectory (.above p) = true := rfl
    rw [step.eq_def]
    dsimp only
    rw [if_neg (by simp [hdir]), if_neg (by simpa using hname.not_here),
      if_neg (by simpa using hname.not_parent), if_neg (Nat.not_lt.mpr hname.fits)]
    by_cases htop : p ++ [name] = f.top
    · have hnone : rest = [] := by
        have hle := h.length_le
        rw [List.length_append, htop] at hle
        exact List.length_eq_zero_iff.mp (by omega)
      subst hnone
      rw [if_pos htop, List.append_nil, if_pos htop, step]
    · rw [if_neg htop, if_pos (List.isPrefixOf_iff_prefix.mpr hinitial)]
      exact ih hrest h htop

end

/-! ## The path of a place -/

/-- The names on the way from the root. -/
def route (f : Files) : Location → Place
  | .inside p => f.top ++ p
  | .above p => p

/-- A path from the root over proper names. -/
def IsWritten (path : String) (ns : Place) : Prop :=
  (∀ n ∈ ns, IsProper n) ∧ path.toList = if ns = [] then ['/'] else slashed ns

theorem proper_of_firm (hf : f.IsSound) {l : Location} (h : f.Firm l) :
    ∀ n ∈ f.route l, IsProper n := by
  cases l with
  | above p => exact fun n hn => hf.top n (h.1.subset hn)
  | inside p =>
    intro n hn
    rcases List.mem_append.mp hn with hn | hn
    · exact hf.top n hn
    · obtain ⟨node, hnode, -⟩ := h.1
      cases p with
      | nil => cases hn
      | cons name p =>
        have hlookup : f.nodes.lookup (name :: p) = some node := hnode
        obtain ⟨before, after, hnodes, -⟩ := List.lookup_eq_some_iff.mp hlookup
        have hmem : (name :: p, node) ∈ f.nodes := by rw [hnodes]; simp
        exact hf.nodes _ hmem n hn

theorem isWritten_pathOf (hf : f.IsSound) {l : Location} (h : f.Firm l) :
    IsWritten (f.pathOf l) (f.route l) := by
  refine ⟨proper_of_firm hf h, ?_⟩
  cases l with
  | above p =>
    rw [pathOf, String.toList_append, route]
    cases p with
    | nil => rfl
    | cons name p =>
      rw [toList_intercalate_slash, if_neg (List.cons_ne_nil _ _)]
      rfl
  | inside p =>
    cases p with
    | nil =>
      rw [pathOf, route, List.append_nil]
      by_cases hbase : f.base.isEmpty = true
      · rw [if_pos hbase, if_pos (hf.base_isEmpty.mp hbase)]
        rfl
      · rw [if_neg hbase, if_neg (mt hf.base_isEmpty.mpr hbase), hf.base_eq]
    | cons name p =>
      rw [pathOf, route, if_neg (by simp), toList_intercalate_slash, hf.base_eq, slashed_append]
      simp

theorem names_written {path : String} {ns : Place} (h : IsWritten path ns) :
    names path.toList = ns := by
  rw [h.2]
  split
  · next hns =>
    rw [hns]
    rfl
  · exact names_slashed h.1

/-- No path of a directory above the top directory goes on below that, and neither does its own. -/
theorem after_of_initial (hf : f.IsSound) (htop : f.top ≠ []) {path : String} {ns : Place}
    (h : IsWritten path ns) (hns : ns <+: f.top) :
    Text.after (f.base.toList ++ ['/']) path.toList = none := by
  cases hafter : Text.after (f.base.toList ++ ['/']) path.toList with
  | none => rfl
  | some rest =>
    have hlength := congrArg List.length (Text.after_eq_some_iff.mp hafter)
    have hlong : path.toList.length ≤ (slashed f.top).length := by
      rw [h.2]
      split
      · cases hcase : f.top with
        | nil => exact absurd hcase htop
        | cons name rest => simp [slashed]
      · obtain ⟨more, hmore⟩ := hns
        rw [← hmore, slashed_append, List.length_append]
        exact Nat.le_add_right _ _
    rw [List.length_append, List.length_append, hf.base_eq] at hlength
    simp only [List.length_singleton] at hlength
    omega

section

variable {follow : Location → List String → Except OsError Location} {path : String}

theorem step_written_above (hf : f.IsSound) (htop : f.top ≠ []) {ns : Place}
    (hpath : IsWritten path ns) (hns : ns <+: f.top) (origin : Location) :
    f.step follow (f.start origin path.toList).1 (f.start origin path.toList).2 =
      .ok (if ns = f.top then .inside [] else .above ns) := by
  have hslash : path.toList.head? = some '/' := by
    rw [hpath.2]
    cases ns <;> rfl
  have hstart : f.start origin path.toList = (.above [], ns) := by
    rw [start, after_of_initial hf htop hpath hns, hslash, names_written hpath]
    rfl
  rw [hstart]
  exact step_above (p := []) hpath.1 hns htop.symm

theorem step_written_inside (hf : f.IsSound) {name : String} {p : Place}
    (h : f.Firm (.inside (name :: p))) (hpath : IsWritten path (f.top ++ name :: p))
    (origin : Location) :
    f.step follow (f.start origin path.toList).1 (f.start origin path.toList).2 =
      .ok (.inside (name :: p)) := by
  have hproper : ∀ n ∈ name :: p, IsProper n := fun n hn => hpath.1 n (List.mem_append_right _ hn)
  have htext : path.toList = f.base.toList ++ ['/'] ++ (name.toList ++ slashed p) := by
    rw [hpath.2, if_neg (by simp), slashed_append, ← hf.base_eq]
    simp [slashed]
  have hstart : f.start origin path.toList = (.inside [], name :: p) := by
    rw [start, Text.after_eq_some_iff.mpr htext]
    dsimp only
    rw [names_of_slashed_tail hproper]
  rw [hstart]
  exact step_inside (p := []) hproper h

/-- The path that is written down for a firm location leads there past all links. -/
theorem step_written (hf : f.IsSound) {l : Location} (h : f.Firm l)
    (hpath : IsWritten path (f.route l)) (origin : Location) :
    f.step follow (f.start origin path.toList).1 (f.start origin path.toList).2 = .ok l := by
  cases l with
  | above p =>
    have htop : f.top ≠ [] := by
      intro hnil
      have hp := h.1
      rw [hnil, List.prefix_nil] at hp
      exact h.2 (hp.trans hnil.symm)
    rw [step_written_above hf htop hpath h.1 origin]
    exact congrArg Except.ok (if_neg h.2)
  | inside p =>
    cases p with
    | cons name p => exact step_written_inside hf h hpath origin
    | nil =>
      rw [route, List.append_nil] at hpath
      by_cases htop : f.top = []
      · have hbase : f.base.toList = [] := by
          rw [hf.base_eq, htop]
          rfl
        have htext : path.toList = ['/'] := by rw [hpath.2, if_pos htop]
        rw [htext, start, hbase]
        rfl
      · rw [step_written_above hf htop hpath (List.prefix_refl _) origin, if_pos rfl]

end

/-! ## Paths without links -/

/-- A path without links and dots that leads from the root to a location. -/
structure IsCanonical (f : Files) (path : String) (l : Location) : Prop where
  written : ∃ ns, IsWritten path ns
  /-- It leads there without following a link. -/
  direct : f.walk 0 (f.start (.inside []) path.toList).1
    (f.start (.inside []) path.toList).2 = .ok l
  found : f.find path = .ok l
  /-- Something is there, and it is no link. -/
  holds : ∃ n, f.node? l = some n ∧ ∀ t, n ≠ .link t

theorem Firm.holds {l : Location} (h : f.Firm l) :
    ∃ n, f.node? l = some n ∧ ∀ t, n ≠ .link t := by
  cases l with
  | inside p => exact h.1
  | above p => exact ⟨.dir, rfl, by simp⟩

theorem find_eq_walk {path : String} (hpath : path ≠ "") (hplain : '\x00' ∉ path.toList) :
    f.find path = f.walk linkLimit (f.start (.inside []) path.toList).1
      (f.start (.inside []) path.toList).2 := by
  rw [find, if_neg (by simpa using hpath), if_neg (by simpa [String.contains_char_eq] using hplain)]

theorem IsWritten.plain {path : String} {ns : Place} (h : IsWritten path ns) :
    path ≠ "" ∧ '\x00' ∉ path.toList := by
  constructor
  · rintro rfl
    have htext := h.2
    cases ns <;> cases htext
  · rw [h.2]
    split
    · decide
    · intro hmem
      obtain ⟨n, hn, hmem⟩ := List.mem_flatMap.mp hmem
      rcases List.mem_cons.mp hmem with hnul | hmem
      · cases hnul
      · exact (h.1 n hn).no_nul hmem

theorem firm_of_find (hf : f.IsSound) {path : String} {l : Location} (h : f.find path = .ok l) :
    f.Firm l := by
  unfold find at h
  split at h
  · cases h
  split at h
  · cases h
  · exact firm_of_walk hf (firm_start hf f.firm_top _) h

theorem isDirectory_of_way {origin l : Location} {t : List Char}
    (horigin : f.isDirectory origin = true) (ht : t = [] ∨ ∃ u, t = u ++ ['/'])
    (h : f.walk linkLimit origin (names t) = .ok l) : f.isDirectory l = true := by
  have hnames : names t = [] ∨ ∃ ns, names t = ns ++ ["."] := by
    rcases ht with rfl | ⟨u, rfl⟩
    · exact Or.inl rfl
    · exact names_of_slash u
  rcases hnames with hnone | ⟨ns, hns⟩
  · rw [hnone, linkLimit, walk, step] at h
    cases h
    exact horigin
  · exact isDirectory_of_walk (hns ▸ h)

/-- What a path with a slash at its end leads to is a directory. -/
theorem isDirectory_of_find {path : String} {s : List Char} (hpath : path.toList = s ++ ['/'])
    {l : Location} (h : f.find path = .ok l) : f.isDirectory l = true := by
  unfold find at h
  split at h
  · cases h
  split at h
  · cases h
  dsimp only at h
  unfold start at h
  cases hafter : Text.after (f.base.toList ++ ['/']) path.toList with
  | none =>
    rw [hafter] at h
    dsimp only at h
    split at h <;> exact isDirectory_of_way rfl (.inr ⟨s, hpath⟩) h
  | some rest =>
    rw [hafter] at h
    refine isDirectory_of_way rfl ?_ h
    have hrest := Text.after_eq_some_iff.mp hafter
    rcases List.eq_nil_or_concat rest with rfl | ⟨u, c, rfl⟩
    · exact Or.inl rfl
    · rw [List.concat_eq_append] at hrest ⊢
      rw [hpath, ← List.append_assoc] at hrest
      exact Or.inr ⟨u, by rw [(List.append_inj' hrest rfl).2]⟩

/-- The path that is given out for what a path leads to is one without links. -/
theorem isCanonical_of_find (hf : f.IsSound) {path : String} {l : Location}
    (h : f.find path = .ok l) : f.IsCanonical (f.pathOf l) l := by
  have hfirm := firm_of_find hf h
  have hwritten := isWritten_pathOf hf hfirm
  refine ⟨⟨_, hwritten⟩, step_written hf hfirm hwritten _, ?_, hfirm.holds⟩
  rw [find_eq_walk hwritten.plain.1 hwritten.plain.2]
  exact step_written hf hfirm hwritten _

end Files

end EngineBench.Host
