import UiSuite.Proofs.Interactive.Draining

/-! Paths that can be asked for.

A path is written in characters that stand for themselves (`Address.isPlain_of_mem_pathOf`), and its
segments are names or empty, never steps (`Address.name_of_mem_segmentsOf`). Neither is changed by
writing: dots are dots in either spelling (`Address.dots?_spell`). So a path that was
written is left as it is (`Address.pathOf_pathOf`), and a server can be polled exactly if the path
of its endpoint is such a one (`Queue.Server.exists_isPolledAt_iff`). -/
namespace UiSuite

namespace Address

/-! ### Characters -/

theorem escapeChar_of_plain {marks : String} {c : Char} (h : isPlain marks c = true) :
    escapeChar marks c = [c] := by
  rw [escapeChar, if_pos h]

theorem spell_cons (marks : String) (c : Char) (cs : List Char) :
    spell marks (c :: cs) = escapeChar marks c ++ spell marks cs :=
  List.flatMap_cons

theorem spell_of_plain {marks : String} {cs : List Char}
    (h : ∀ c ∈ cs, isPlain marks c = true) : spell marks cs = cs := by
  induction cs with
  | nil => rfl
  | cons c cs ih =>
    obtain ⟨hc, hcs⟩ := List.forall_mem_cons.1 h
    rw [spell_cons, escapeChar_of_plain hc, ih hcs, List.singleton_append]

theorem isPlain_of_mem_escape {b : UInt8} {c : Char} (h : c ∈ escape b) :
    isPlain pathMarks c = true ∧ isSlash c = false := by
  have hdigit : ∀ n < 16, isPlain pathMarks (Nat.digitChar n).toUpper = true ∧
      isSlash (Nat.digitChar n).toUpper = false := by decide
  have hb : b.toNat < 256 := b.toNat_lt
  simp only [escape, List.mem_cons, List.not_mem_nil, or_false] at h
  rcases h with rfl | rfl | rfl
  · decide
  · exact hdigit _ (by omega)
  · exact hdigit _ (by omega)

/-- What a character is written as stands for itself, and no slash is written for another. -/
theorem isPlain_of_mem_escapeChar {c d : Char} (h : d ∈ escapeChar pathMarks c) :
    isPlain pathMarks d = true ∧ (isSlash c = false → isSlash d = false) := by
  rw [escapeChar] at h
  split at h
  · rename_i hc
    obtain rfl := List.mem_singleton.1 h
    exact ⟨hc, id⟩
  · obtain ⟨b, -, hb⟩ := List.mem_flatMap.1 h
    exact ⟨(isPlain_of_mem_escape hb).1, fun _ => (isPlain_of_mem_escape hb).2⟩

/-! ### Dots -/

/-- Only a dot is written as the octet of a dot. -/
theorem exists_utf8EncodeChar {c : Char} (h : c ≠ '.') :
    ∃ b rest, String.utf8EncodeChar c = b :: rest ∧ b ≠ 0x2E := by
  have hdot {n : Nat} (hn : n < 256) (hne : n ≠ 0x2E) : UInt8.ofNat n ≠ 0x2E := by
    intro heq
    have htoNat : (UInt8.ofNat n).toNat = n := UInt8.toNat_ofNat_of_lt' hn
    rw [heq] at htoNat
    exact hne htoNat.symm
  have hc : c.val.toNat ≠ 0x2E := fun heq => h (Char.toNat_inj.1 heq)
  rw [String.utf8EncodeChar]
  generalize c.val.toNat = v at hc
  split
  · exact ⟨_, _, rfl, hdot (by omega) hc⟩
  split
  · exact ⟨_, _, rfl, hdot (by omega) (by omega)⟩
  split
  · exact ⟨_, _, rfl, hdot (by omega) (by omega)⟩
  · exact ⟨_, _, rfl, hdot (by omega) (by omega)⟩

/-- The first two digits after a percent sign tell whether a dot is meant. -/
theorem dots?_percent (x e : Char) (cs : List Char) :
    dots? ('%' :: x :: e :: cs) =
      if x = '2' ∧ (e = 'e' ∨ e = 'E') then (dots? cs).map (· + 1) else none := by
  rw [dots?.eq_def]
  split <;> simp_all

theorem dots?_percent_of_ne {x : Char} (h : x ≠ '2') (cs : List Char) :
    dots? ('%' :: x :: cs) = none := by
  rw [dots?.eq_def]
  split <;> simp_all

theorem dots?_of_ne {c : Char} (hdot : c ≠ '.') (hpercent : c ≠ '%') (cs : List Char) :
    dots? (c :: cs) = none := by
  rw [dots?.eq_def]
  split <;> simp_all

theorem dots?_escape {b : UInt8} (h : b ≠ 0x2E) (cs : List Char) :
    dots? (escape b ++ cs) = none := by
  have hdigits : ∀ n < 256, n ≠ 0x2E → ¬ ((Nat.digitChar (n / 16)).toUpper = '2' ∧
      ((Nat.digitChar (n % 16)).toUpper = 'e' ∨ (Nat.digitChar (n % 16)).toUpper = 'E')) := by
    decide +kernel
  have hb : b.toNat ≠ 0x2E := fun heq => h (UInt8.toNat_inj.1 heq)
  show dots? ('%' :: _ :: _ :: cs) = none
  rw [dots?_percent, if_neg (hdigits b.toNat b.toNat_lt hb)]

/-- What does not stand for itself begins with an octet that is not a dot's. -/
theorem exists_escape {c : Char} (h : isPlain pathMarks c = false) :
    ∃ b rest, escapeChar pathMarks c = escape b ++ rest ∧ b ≠ 0x2E := by
  have hc : c ≠ '.' := by
    rintro rfl
    revert h
    decide
  obtain ⟨b, rest, hoctets, hb⟩ := exists_utf8EncodeChar hc
  refine ⟨b, rest.flatMap escape, ?_, hb⟩
  rw [escapeChar, if_neg (Bool.eq_false_iff.1 h), hoctets, List.flatMap_cons]

/-- What is written begins with the character or with a percent sign. -/
theorem exists_escapeChar (c : Char) :
    ∃ first rest, escapeChar pathMarks c = first :: rest ∧ (first = c ∨ first = '%') := by
  cases hc : isPlain pathMarks c with
  | true => exact ⟨c, [], escapeChar_of_plain hc, .inl rfl⟩
  | false =>
    obtain ⟨b, rest, hwritten, -⟩ := exists_escape hc
    exact ⟨'%', _, hwritten, .inr rfl⟩

/-- A percent sign begins a dot only before the digits of one. -/
theorem dots?_percent_spell {cs : List Char} (h : ∀ e rest, cs = '2' :: e :: rest → False) :
    dots? ('%' :: spell pathMarks cs) = none := by
  cases cs with
  | nil => rfl
  | cons d rest =>
    by_cases hd : d = '2'
    · subst hd
      cases rest with
      | nil => rfl
      | cons e rest => exact (h e rest rfl).elim
    · obtain ⟨first, further, hwritten, hfirst⟩ := exists_escapeChar d
      have hother : first ≠ '2' := by
        rcases hfirst with rfl | rfl
        · exact hd
        · decide
      rw [spell_cons, hwritten, List.cons_append, dots?_percent_of_ne hother]

/-- **Dots are dots however a segment is written.** -/
theorem dots?_spell (segment : List Char) : dots? (spell pathMarks segment) = dots? segment := by
  have hpercent : escapeChar pathMarks '%' = ['%'] := escapeChar_of_plain (by decide)
  have htwo : escapeChar pathMarks '2' = ['2'] := escapeChar_of_plain (by decide)
  fun_induction dots? segment with
  | case1 => rfl
  | case2 cs ih =>
    rw [spell_cons, escapeChar_of_plain (by decide), List.singleton_append, dots?, ih]
  | case3 e cs he ih =>
    have hwritten : escapeChar pathMarks e = [e] := by
      rcases he with rfl | rfl <;> exact escapeChar_of_plain (by decide)
    simp only [spell_cons, hwritten, hpercent, htwo, List.cons_append, List.nil_append]
    rw [dots?_percent, if_pos ⟨rfl, he⟩, ih]
  | case4 e cs he =>
    obtain ⟨first, rest, hwritten, hfirst⟩ := exists_escapeChar e
    have hother : ¬ (first = 'e' ∨ first = 'E') := by
      rcases hfirst with rfl | rfl
      · exact he
      · decide
    simp only [spell_cons, hwritten, hpercent, htwo, List.cons_append, List.nil_append]
    rw [dots?_percent, if_neg fun h => hother h.2]
  | case5 segment hnil hdot hescape =>
    cases segment with
    | nil => exact absurd rfl hnil
    | cons c cs =>
      rw [spell_cons]
      cases hc : isPlain pathMarks c with
      | false =>
        obtain ⟨b, rest, hwritten, hb⟩ := exists_escape hc
        rw [hwritten, List.append_assoc, dots?_escape hb]
      | true =>
        rw [escapeChar_of_plain hc, List.singleton_append]
        by_cases hfirst : c = '%'
        · subst hfirst
          exact dots?_percent_spell fun e rest heq => hescape e rest (by rw [heq])
        · exact dots?_of_ne (fun heq => hdot cs (by rw [heq])) hfirst _

/-! ### Segments -/

theorem spell_spell (segment : List Char) :
    spell pathMarks (spell pathMarks segment) = spell pathMarks segment := by
  refine spell_of_plain fun d hd => ?_
  obtain ⟨c, -, hc⟩ := List.mem_flatMap.1 hd
  exact (isPlain_of_mem_escapeChar hc).1

/-- No slash is written where none was. -/
theorem isSlash_of_mem_spell {segment : List Char} (h : ∀ c ∈ segment, isSlash c = false) :
    ∀ d ∈ spell pathMarks segment, isSlash d = false := by
  intro d hd
  obtain ⟨c, hmem, hc⟩ := List.mem_flatMap.1 hd
  exact (isPlain_of_mem_escapeChar hc).2 (h c hmem)

/-- Whether a segment is a step and no name. -/
def isStep (segment : List Char) : Bool :=
  dots? segment = some 1 || dots? segment = some 2

theorem isStep_spell (segment : List Char) :
    isStep (spell pathMarks segment) = isStep segment := by
  rw [isStep, dots?_spell, isStep]

theorem descend_cons {segment : List Char} (h : isStep segment = false)
    (above rest : List (List Char)) :
    descend above (segment :: rest) = descend (segment :: above) rest := by
  rw [isStep, Bool.or_eq_false_iff, decide_eq_false_iff_not, decide_eq_false_iff_not] at h
  rw [descend]
  split
  · exact absurd ‹_› h.1
  · exact absurd ‹_› h.2
  · rfl

/-- Without steps every segment stays. -/
theorem descend_of_names {segments : List (List Char)} (h : ∀ s ∈ segments, isStep s = false)
    (above : List (List Char)) : descend above segments = segments.reverse ++ above := by
  induction segments generalizing above with
  | nil => rfl
  | cons segment rest ih =>
    obtain ⟨hsegment, hrest⟩ := List.forall_mem_cons.1 h
    rw [descend_cons hsegment, ih hrest, List.reverse_cons, List.append_assoc]
    rfl

/-- What stays is a name of the path, or the empty one at its end. -/
theorem mem_descend {above segments : List (List Char)} :
    ∀ s ∈ descend above segments, s ∈ above ∨ s = [] ∨ s ∈ segments ∧ isStep s = false := by
  have hlater {above segments : List (List Char)} {segment s : List Char}
      (h : s ∈ above ∨ s = [] ∨ s ∈ segments ∧ isStep s = false) :
      s ∈ above ∨ s = [] ∨ s ∈ segment :: segments ∧ isStep s = false :=
    h.imp_right fun h => h.imp_right fun h => ⟨List.mem_cons_of_mem segment h.1, h.2⟩
  fun_induction descend above segments with
  | case1 above => exact fun s hs => .inl hs
  | case2 above segment rest hdot hlast =>
    exact List.forall_mem_cons.2 ⟨.inr (.inl rfl), fun s hs => .inl hs⟩
  | case3 above segment rest hdot hmore ih => exact fun s hs => hlater (ih s hs)
  | case4 above segment rest hdots hlast =>
    exact List.forall_mem_cons.2 ⟨.inr (.inl rfl), fun s hs => .inl (List.mem_of_mem_tail hs)⟩
  | case5 above segment rest hdots hmore ih =>
    exact fun s hs => (hlater (ih s hs)).imp_left List.mem_of_mem_tail
  | case6 above segment rest hone htwo ih =>
    intro s hs
    have hname : isStep segment = false :=
      Bool.or_eq_false_iff.2 ⟨decide_eq_false hone, decide_eq_false htwo⟩
    rcases ih s hs with hmem | hrest
    · rcases List.mem_cons.1 hmem with rfl | habove
      · exact .inr (.inr ⟨List.mem_cons_self, hname⟩)
      · exact .inl habove
    · exact hlater (.inr hrest)

theorem descend_ne_nil {segments : List (List Char)} (h : segments ≠ [])
    (above : List (List Char)) : descend above segments ≠ [] := by
  fun_induction descend above segments with
  | case1 => exact absurd rfl h
  | case2 => exact List.cons_ne_nil _ _
  | case3 above segment rest hdot hmore ih => exact ih fun hnil => hmore (by simp [hnil])
  | case4 => exact List.cons_ne_nil _ _
  | case5 above segment rest hdots hmore ih => exact ih fun hnil => hmore (by simp [hnil])
  | case6 above segment rest hone htwo ih =>
    cases rest with
    | nil => exact List.cons_ne_nil _ _
    | cons next rest => exact ih (List.cons_ne_nil _ _)

/-! ### Paths -/

theorem segmentsOf_ne_nil (cs : List Char) : segmentsOf cs ≠ [] := by
  obtain ⟨further, hpieces⟩ :=
    Text.pieces_eq_cons '/' ((cs.map fun c => if isSlash c then '/' else c).drop 1)
  rw [segmentsOf, Ne, List.reverse_eq_nil_iff, hpieces]
  exact descend_ne_nil (List.cons_ne_nil _ _) []

/-- The segments of a path are names or empty, without slashes. -/
theorem name_of_mem_segmentsOf {cs segment : List Char} (h : segment ∈ segmentsOf cs) :
    isStep segment = false ∧ ∀ c ∈ segment, isSlash c = false := by
  rcases mem_descend segment (List.mem_reverse.1 h) with hnone | rfl | ⟨hpiece, hname⟩
  · cases hnone
  · exact ⟨rfl, nofun⟩
  · refine ⟨hname, fun c hc => ?_⟩
    obtain ⟨hmem, hne⟩ := Text.mem_of_mem_pieces hpiece c hc
    obtain ⟨d, -, rfl⟩ := List.mem_map.1 (List.mem_of_mem_drop hmem)
    cases hd : isSlash d with
    | true => simp [hd] at hne
    | false => simp [hd]

/-- Segments with slashes before them are divided again. -/
theorem pieces_drop_joined {segments : List (List Char)} (hne : segments ≠ [])
    (h : ∀ s ∈ segments, '/' ∉ s) :
    Text.pieces '/' ((segments.flatMap ('/' :: ·)).drop 1) = segments := by
  induction segments with
  | nil => exact absurd rfl hne
  | cons segment rest ih =>
    obtain ⟨hsegment, hrest⟩ := List.forall_mem_cons.1 h
    cases rest with
    | nil => simp [Text.pieces_of_not_mem hsegment]
    | cons next rest =>
      have hlater := ih (List.cons_ne_nil _ _) hrest
      have hjoined : ((segment :: next :: rest).flatMap ('/' :: ·)).drop 1 =
          segment ++ '/' :: ((next :: rest).flatMap ('/' :: ·)).drop 1 := rfl
      rw [hjoined, Text.pieces_append, hlater, Text.pieces_of_not_mem hsegment]
      rfl

theorem pathOf_eq (cs : List Char) :
    pathOf cs = ((segmentsOf cs).map (spell pathMarks)).flatMap ('/' :: ·) := by
  rw [pathOf, List.flatMap_map]

/-- The segments of a path that was written are read again as they were written. -/
theorem segmentsOf_pathOf (cs : List Char) :
    segmentsOf (pathOf cs) = (segmentsOf cs).map (spell pathMarks) := by
  have hnames : ∀ s ∈ (segmentsOf cs).map (spell pathMarks),
      isStep s = false ∧ ∀ c ∈ s, isSlash c = false := by
    refine List.forall_mem_map.2 fun segment hmem => ?_
    obtain ⟨hname, hslash⟩ := name_of_mem_segmentsOf hmem
    exact ⟨(isStep_spell segment).trans hname, isSlash_of_mem_spell hslash⟩
  have hsame : (pathOf cs).map (fun c => if isSlash c then '/' else c) = pathOf cs := by
    refine (List.map_congr_left fun c hc => ?_).trans (List.map_id _)
    rw [pathOf_eq] at hc
    obtain ⟨segment, hmem, hc⟩ := List.mem_flatMap.1 hc
    rcases List.mem_cons.1 hc with rfl | hc
    · rfl
    · rw [if_neg (Bool.eq_false_iff.1 ((hnames segment hmem).2 c hc))]
      rfl
  have hslashless : ∀ s ∈ (segmentsOf cs).map (spell pathMarks), '/' ∉ s := by
    intro s hs hslash
    exact absurd ((hnames s hs).2 '/' hslash) (by decide)
  have hne : (segmentsOf cs).map (spell pathMarks) ≠ [] :=
    fun hnil => segmentsOf_ne_nil cs (List.map_eq_nil_iff.1 hnil)
  rw [segmentsOf, hsame, pathOf_eq, pieces_drop_joined hne hslashless,
    descend_of_names fun s hs => (hnames s hs).1, List.append_nil, List.reverse_reverse]

/-- **A path that was written is left as it is.** -/
theorem pathOf_pathOf (cs : List Char) : pathOf (pathOf cs) = pathOf cs := by
  have hspelled : (segmentsOf cs).map (spell pathMarks ∘ spell pathMarks) =
      (segmentsOf cs).map (spell pathMarks) :=
    List.map_congr_left fun segment _ => spell_spell segment
  rw [pathOf_eq (pathOf cs), segmentsOf_pathOf, List.map_map, hspelled, ← pathOf_eq]

/-- Only what stands for itself stands in a path. -/
theorem isPlain_of_mem_pathOf {cs : List Char} {c : Char} (h : c ∈ pathOf cs) :
    isPlain pathMarks c = true := by
  obtain ⟨segment, -, hc⟩ := List.mem_flatMap.1 h
  rcases List.mem_cons.1 hc with rfl | hc
  · decide
  · obtain ⟨d, -, hd⟩ := List.mem_flatMap.1 hc
    exact (isPlain_of_mem_escapeChar hd).1

/-- A mark that does not stand in a path ends none. -/
theorem takeWhile_pathOf {mark : Char} (hmark : isPlain pathMarks mark = false) (cs : List Char) :
    (pathOf cs).takeWhile (· != mark) = pathOf cs := by
  refine List.takeWhile_eq_self_iff.2 fun c hc => bne_iff_ne.2 ?_
  rintro rfl
  rw [isPlain_of_mem_pathOf hc] at hmark
  cases hmark

theorem exists_pathOf_eq_cons (cs : List Char) : ∃ rest, pathOf cs = '/' :: rest := by
  obtain ⟨segment, rest, hsegments⟩ := List.exists_cons_of_ne_nil (segmentsOf_ne_nil cs)
  exact ⟨_, by rw [pathOf, hsegments, List.flatMap_cons, List.cons_append]⟩

/-! ### Places -/

/-- The path of a place is what stands before its query. -/
theorem takeWhile_placeOf (cs : List Char) :
    (placeOf cs).toList.takeWhile (· != '?') =
      pathOf ((cs.takeWhile (· != '#')).takeWhile (· != '?')) := by
  rw [placeOf, String.toList_ofList]
  generalize cs.takeWhile (· != '#') = cs
  have hpath : ∀ c ∈ pathOf (cs.takeWhile (· != '?')), (c != '?') = true :=
    List.takeWhile_eq_self_iff.1 (takeWhile_pathOf (by decide) _)
  have hquery : (spell queryMarks (cs.dropWhile (· != '?'))).takeWhile (· != '?') = [] := by
    have hfirst := List.head?_dropWhile_not (· != '?') cs
    cases hrest : cs.dropWhile (· != '?') with
    | nil => rfl
    | cons c rest =>
      simp only [hrest, List.head?_cons, bne_eq_false_iff_eq] at hfirst
      subst hfirst
      rfl
  rw [List.takeWhile_append_of_pos hpath, hquery, List.append_nil]

theorem placeOf_pathOf (cs : List Char) : placeOf (pathOf cs) = String.ofList (pathOf cs) := by
  have hhash : (pathOf cs).takeWhile (· != '#') = pathOf cs := takeWhile_pathOf (by decide) cs
  have hquery : (pathOf cs).takeWhile (· != '?') = pathOf cs := takeWhile_pathOf (by decide) cs
  have hnone : (pathOf cs).dropWhile (· != '?') = [] :=
    List.dropWhile_eq_nil_iff.2 (List.takeWhile_eq_self_iff.1 hquery)
  simp only [placeOf, hhash, hquery, hnone, pathOf_pathOf, spell, List.flatMap_nil,
    List.append_nil]

theorem exists_placeOf {text : String} {a : Address} (h : ofText? text = some a) :
    ∃ cs, a.place = placeOf cs := by
  rw [ofText?] at h
  split at h
  · split at h
    · obtain ⟨p, -, rfl⟩ := Option.map_eq_some_iff.1 h
      exact ⟨_, rfl⟩
    · cases h
  · cases h

theorem relevant_of_plain {cs : List Char} (h : ∀ c ∈ cs, ' ' < c) :
    relevant (String.ofList cs) = cs := by
  have hedge {cs : List Char} (h : ∀ c ∈ cs, ' ' < c) : cs.dropWhile (· ≤ ' ') = cs := by
    cases cs with
    | nil => rfl
    | cons c cs =>
      have hc : ¬ c ≤ ' ' := Char.not_le.2 (h c List.mem_cons_self)
      rw [List.dropWhile_cons, if_neg (by simp [hc])]
  have hreverse : ∀ c ∈ cs.reverse, ' ' < c := fun c hc => h c (List.mem_reverse.1 hc)
  simp only [relevant, String.toList_ofList, hedge h, hedge hreverse, List.reverse_reverse]
  have hblank : ∀ d ∈ "\t\r\n".toList, ¬ ' ' < d := by simp
  refine List.filter_eq_self.2 fun c hc => ?_
  have hother : c ∉ "\t\r\n".toList := fun hmem => hblank c hmem (h c hc)
  simpa using hother

/-- A path that stands behind a host is asked for as it is. -/
theorem ofText?_pathOf (cs : List Char) :
    ofText? (String.ofList ("http://h".toList ++ pathOf cs)) =
      some ⟨"h", usualPort, String.ofList (pathOf cs)⟩ := by
  have hvisible : ∀ c ∈ "http://h".toList ++ pathOf cs, ' ' < c := by
    refine List.forall_mem_append.2 ⟨by simp, fun c hc => ?_⟩
    have hplain := isPlain_of_mem_pathOf hc
    simp only [isPlain, Bool.and_eq_true, decide_eq_true_eq] at hplain
    exact Std.lt_of_lt_of_le (by decide) hplain.1.1
  have hcolon : ':' ∉ "http".toList := by decide
  have hscheme : Text.splitFirst ':' ("http://h".toList ++ pathOf cs) =
      some ("http".toList, "//h".toList ++ pathOf cs) :=
    Text.splitFirst_append hcolon ("//h".toList ++ pathOf cs)
  obtain ⟨rest, hpath⟩ := exists_pathOf_eq_cons cs
  have hslashes : ("//h".toList ++ pathOf cs).dropWhile isSlash = 'h' :: pathOf cs := by
    rfl
  have hauthority : ('h' :: pathOf cs).takeWhile isOfAuthority = ['h'] := by
    rw [hpath]
    rfl
  have hbehind : ('h' :: pathOf cs).dropWhile isOfAuthority = pathOf cs := by
    rw [hpath]
    rfl
  have hhost : hostAndPort? (withoutUser ['h']) = some ("h", usualPort) := by decide
  rw [ofText?, relevant_of_plain hvisible, hscheme]
  simp only [hslashes, hauthority, hbehind, hhost, placeOf_pathOf, Option.map_some]
  rfl

end Address

namespace Queue.Server

/-- Only at its endpoint a server is polled. -/
theorem place?_eq_polls_iff {s : Server} {path : List Char} :
    s.place? path = some .polls ↔ path = (normalize s.endpoint).toList := by
  rw [place?]
  split
  · rename_i heq
    simp [heq]
  · rename_i hne
    simp only [hne, iff_false]
    split
    · nofun
    split
    · nofun
    split <;> nofun

/-- **A server can be polled exactly if the path of its endpoint goes straight down** and all of it
stands for itself. -/
theorem exists_isPolledAt_iff (s : Server) :
    (∃ url, s.isPolledAt url = true) ↔
      Address.pathOf (normalize s.endpoint).toList = (normalize s.endpoint).toList := by
  constructor
  · rintro ⟨url, hurl⟩
    obtain ⟨a, haddress, hpolls⟩ := (Option.any_eq_true _ _).1 hurl
    obtain ⟨cs, hcs⟩ := Address.exists_placeOf haddress
    have hpath : a.ask.place = (normalize s.endpoint).toList :=
      place?_eq_polls_iff.1 (of_decide_eq_true hpolls)
    have hasked : a.ask.place = a.place.toList.takeWhile (· != '?') := rfl
    rw [← hpath, hasked, hcs, Address.takeWhile_placeOf, Address.pathOf_pathOf]
  · intro hpath
    refine ⟨String.ofList ("http://h".toList ++ (normalize s.endpoint).toList), ?_⟩
    have hasked : (String.ofList (Address.pathOf (normalize s.endpoint).toList)).toList.takeWhile
        (· != '?') = (normalize s.endpoint).toList := by
      rw [String.toList_ofList, Address.takeWhile_pathOf (by decide), hpath]
    rw [isPolledAt, ← hpath, Address.ofText?_pathOf, Option.any_some]
    exact decide_eq_true (place?_eq_polls_iff.2 hasked)

end Queue.Server
end UiSuite
