import SigV4.Proofs.Canonical
/-!
# Dot segments

RFC 3986 takes the dot segments out of a path by rewriting: rules apply to the front of an input buffer
until it is empty, and what stays moves to an output buffer. `normalize` walks over the segments instead.
Once there are single slashes only, both lead to the same path, and that path is normal: no segment of it
would be taken out again. Its encoded form still tells it.
-/

namespace SigV4.Path

/-! ## Rewriting -/

/-- The buffer without its last segment and the slash in front of that. -/
def dropSegment (output : Bytes) : Bytes := (output.reverse.dropWhile (· != 0x2F)).tail.reverse

/-- What one of the rules A to E makes of the input and the output buffer. -/
def rewrite (input output : Bytes) : Bytes × Bytes :=
  -- A
  if dotDot ++ [0x2F] <+: input then (input.drop 3, output)
  else if dot ++ [0x2F] <+: input then (input.drop 2, output)
  -- B
  else if 0x2F :: dot ++ [0x2F] <+: input then (input.drop 2, output)
  else if input = 0x2F :: dot then ([0x2F], output)
  -- C
  else if 0x2F :: dotDot ++ [0x2F] <+: input then (input.drop 3, dropSegment output)
  else if input = 0x2F :: dotDot then ([0x2F], dropSegment output)
  -- D
  else if input = dot ∨ input = dotDot then ([], output)
  -- E: a slash at the front belongs to the segment behind it
  else ((input.drop 1).dropWhile (· != 0x2F), output ++ (input.take 1 ++ (input.drop 1).takeWhile (· != 0x2F)))

theorem length_rewrite_lt {input : Bytes} (h : input ≠ []) (output : Bytes) :
    (rewrite input output).1.length < input.length := by
  have hpos := List.length_pos_iff.2 h
  have hrest : ((input.drop 1).dropWhile (· != 0x2F)).length ≤ (input.drop 1).length :=
    (List.dropWhile_sublist _).length_le
  simp only [List.length_drop] at hrest
  unfold rewrite
  split_ifs with _ _ _ hdot _ hdots
  · simp only [List.length_drop]; omega
  · simp only [List.length_drop]; omega
  · simp only [List.length_drop]; omega
  · subst hdot; simp [dot]
  · simp only [List.length_drop]; omega
  · subst hdots; simp [dotDot]
  · exact hpos
  · simp only; omega

/-- The algorithm of section 5.2.4, for an output buffer that may hold something already. -/
def removeDots (input output : Bytes) : Bytes :=
  if input = [] then output else removeDots (rewrite input output).1 (rewrite input output).2
termination_by input.length
decreasing_by exact length_rewrite_lt ‹_› output

theorem removeDots_nil (output : Bytes) : removeDots [] output = output := by
  rw [removeDots, if_pos rfl]

theorem removeDots_cons (b : UInt8) (input output : Bytes) :
    removeDots (b :: input) output = removeDots (rewrite (b :: input) output).1 (rewrite (b :: input) output).2 := by
  rw [removeDots, if_neg (by simp)]

/-! ## Segments in the buffers -/

/-- Every segment behind a slash. -/
def spell (segments : List Bytes) : Bytes := segments.flatMap (0x2F :: ·)

@[simp] theorem spell_nil : spell [] = [] := rfl

@[simp] theorem spell_cons (s : Bytes) (ss : List Bytes) : spell (s :: ss) = 0x2F :: (s ++ spell ss) := by
  simp [spell]

theorem spell_append (ss ts : List Bytes) : spell (ss ++ ts) = spell ss ++ spell ts := List.flatMap_append

theorem spell_eq_join {ss : List Bytes} (h : ss ≠ []) : spell ss = 0x2F :: Bytes.join [0x2F] ss := by
  induction ss with
  | nil => exact absurd rfl h
  | cons s ss ih =>
    by_cases hss : ss = []
    · subst hss
      simp
    · rw [spell_cons, ih hss, Bytes.join_cons [0x2F] s hss]
      simp

theorem spell_splitOn (path : Bytes) : spell (Bytes.splitOn 0x2F path) = 0x2F :: path := by
  rw [spell_eq_join (Bytes.splitOn_ne_nil 0x2F path), Bytes.join_splitOn]

theorem splitOn_slash (path : Bytes) : Bytes.splitOn 0x2F (0x2F :: path) = [] :: Bytes.splitOn 0x2F path :=
  Bytes.splitOn_append_cons 0x2F [] path

theorem splitOn_spell {ss : List Bytes} (hne : ss ≠ []) (h : ∀ s ∈ ss, (0x2F : UInt8) ∉ s) :
    Bytes.splitOn 0x2F (spell ss) = [] :: ss := by
  rw [spell_eq_join hne, splitOn_slash, Bytes.splitOn_join hne h]

theorem dropSegment_spell {ps : List Bytes} (h : ∀ p ∈ ps, (0x2F : UInt8) ∉ p) :
    dropSegment (spell ps.reverse) = spell ps.tail.reverse := by
  cases ps with
  | nil => rfl
  | cons p ps =>
    rw [List.forall_mem_cons] at h
    have hp : ∀ b ∈ p.reverse, (b != 0x2F) = true :=
      fun b hb => bne_iff_ne.2 fun e => h.1 (e ▸ List.mem_reverse.1 hb)
    have hspell : (spell (p :: ps).reverse).reverse = p.reverse ++ 0x2F :: (spell ps.reverse).reverse := by
      rw [List.reverse_cons, spell_append]
      simp
    rw [dropSegment, hspell, List.dropWhile_append_of_pos hp, List.dropWhile_cons_of_neg (by simp), List.tail_cons,
      List.reverse_reverse, List.tail_cons]

/-! ## The rules on segments -/

/-- In front of a slash rules A and D do not apply. -/
theorem rewrite_slash (bs output : Bytes) :
    rewrite (0x2F :: bs) output =
      if dot ++ [0x2F] <+: bs then (bs.drop 1, output)
      else if bs = dot then ([0x2F], output)
      else if dotDot ++ [0x2F] <+: bs then (bs.drop 2, dropSegment output)
      else if bs = dotDot then ([0x2F], dropSegment output)
      else (bs.dropWhile (· != 0x2F), output ++ 0x2F :: bs.takeWhile (· != 0x2F)) := by
  have hfront : ∀ d : Bytes, ¬ 0x2E :: d <+: 0x2F :: bs := by
    intro d h
    exact absurd (List.cons_prefix_cons.1 h).1 (by decide)
  have hdots : ¬ dotDot ++ [0x2F] <+: 0x2F :: bs := hfront [0x2E, 0x2F]
  have hdot : ¬ dot ++ [0x2F] <+: 0x2F :: bs := hfront [0x2F]
  have hwhole : ¬ (0x2F :: bs = dot ∨ 0x2F :: bs = dotDot) := by simp [dot, dotDot]
  unfold rewrite
  rw [if_neg hdots, if_neg hdot, if_neg hwhole]
  simp only [List.cons_append, List.cons_prefix_cons, true_and, List.cons.injEq, List.drop_succ_cons, List.drop_zero,
    List.take_succ_cons, List.take_zero, List.nil_append]

/-- A segment that is not the last one. -/
theorem rewrite_inner {s : Bytes} (hs : (0x2F : UInt8) ∉ s) (rest output : Bytes) :
    rewrite (0x2F :: (s ++ 0x2F :: rest)) output =
      (0x2F :: rest, if s = dot then output else if s = dotDot then dropSegment output else output ++ 0x2F :: s) := by
  have hb : ∀ b ∈ s, (b != 0x2F) = true := fun b hb => bne_iff_ne.2 fun e => hs (e ▸ hb)
  have hpart : ∀ d : Bytes, (0x2F : UInt8) ∉ d → (d ++ [0x2F] <+: s ++ 0x2F :: rest ↔ s = d) := by
    intro d hd
    rw [Bytes.prefix_iff hd hs, eq_comm]
  have hwhole : ∀ d : Bytes, (0x2F : UInt8) ∉ d → ¬ s ++ 0x2F :: rest = d := by
    rintro d hd rfl
    simp at hd
  have hdot : (0x2F : UInt8) ∉ dot := by decide
  have hdots : (0x2F : UInt8) ∉ dotDot := by decide
  rw [rewrite_slash, if_neg (hwhole _ hdot), if_neg (hwhole _ hdots)]
  simp only [hpart _ hdot, hpart _ hdots]
  by_cases h1 : s = dot
  · subst h1
    rfl
  by_cases h2 : s = dotDot
  · subst h2
    rfl
  · simp [h1, h2, List.dropWhile_append_of_pos hb, List.takeWhile_append_of_pos hb]

theorem rewrite_last {s : Bytes} (hs : (0x2F : UInt8) ∉ s) (output : Bytes) :
    rewrite (0x2F :: s) output =
      if s = dot then ([0x2F], output)
      else if s = dotDot then ([0x2F], dropSegment output)
      else ([], output ++ 0x2F :: s) := by
  have hb : ∀ b ∈ s, (b != 0x2F) = true := fun b hb => bne_iff_ne.2 fun e => hs (e ▸ hb)
  have hpart : ∀ d : Bytes, ¬ d ++ [0x2F] <+: s := fun d h => hs (h.subset (by simp))
  rw [rewrite_slash, if_neg (hpart _), if_neg (hpart _), List.dropWhile_eq_nil_iff.2 hb,
    List.takeWhile_eq_self_iff.2 hb]

theorem notMem_enter {ps : List Bytes} {s : Bytes} (hp : ∀ p ∈ ps, (0x2F : UInt8) ∉ p) (hs : (0x2F : UInt8) ∉ s) :
    ∀ p ∈ enter ps s, (0x2F : UInt8) ∉ p := by
  unfold enter
  split_ifs
  · exact hp
  · exact fun p h => hp p (List.mem_of_mem_tail h)
  · exact List.forall_mem_cons.2 ⟨hs, hp⟩

/-- The output buffer after a segment is spelt as the walk has it. -/
theorem spell_enter {ps : List Bytes} {s : Bytes} (hp : ∀ p ∈ ps, (0x2F : UInt8) ∉ p) (hs : s ≠ []) :
    (if s = dot then spell ps.reverse else if s = dotDot then dropSegment (spell ps.reverse)
      else spell ps.reverse ++ 0x2F :: s) = spell (enter ps s).reverse := by
  unfold enter
  by_cases h1 : s = dot
  · rw [if_pos h1, if_pos (.inr h1)]
  by_cases h2 : s = dotDot
  · rw [if_neg h1, if_pos h2, if_neg (by simp [hs, h1]), if_pos h2, dropSegment_spell hp]
  · rw [if_neg h1, if_neg h2, if_neg (by simp [hs, h1]), if_neg h2, List.reverse_cons, spell_append]
    simp

theorem removeDots_inner {ps : List Bytes} {s : Bytes} (hp : ∀ p ∈ ps, (0x2F : UInt8) ∉ p)
    (hs : (0x2F : UInt8) ∉ s) (hne : s ≠ []) (rest : Bytes) :
    removeDots (0x2F :: (s ++ 0x2F :: rest)) (spell ps.reverse) =
      removeDots (0x2F :: rest) (spell (enter ps s).reverse) := by
  rw [removeDots_cons, rewrite_inner hs, spell_enter hp hne]

theorem removeDots_slash (output : Bytes) : removeDots [0x2F] output = output ++ [0x2F] := by
  rw [removeDots_cons, rewrite_last (by simp), if_neg (by decide), if_neg (by decide), removeDots_nil]

/-- A slash stays behind a last segment that names nothing. -/
theorem removeDots_last {ps : List Bytes} {s : Bytes} (hp : ∀ p ∈ ps, (0x2F : UInt8) ∉ p)
    (hs : (0x2F : UInt8) ∉ s) :
    removeDots (0x2F :: s) (spell ps.reverse) =
      spell (enter ps s).reverse ++ if endsInDirectory [s] then [0x2F] else [] := by
  by_cases h0 : s = []
  · subst h0
    exact removeDots_slash _
  rw [removeDots_cons, rewrite_last hs, ← spell_enter hp h0]
  by_cases h1 : s = dot
  · simp [h1, endsInDirectory, removeDots_slash]
  by_cases h2 : s = dotDot
  · rw [if_neg h1, if_neg h1, if_pos h2, if_pos h2, removeDots_slash]
    simp [h2, endsInDirectory]
  · simp [h0, h1, h2, endsInDirectory, removeDots_nil]

/-! ## The rules on a path -/

/-- The segments without those that are empty, but for the last one. -/
def tidy : List Bytes → List Bytes
  | [] => []
  | [s] => [s]
  | s :: t :: ss => if s = [] then tidy (t :: ss) else s :: tidy (t :: ss)

theorem tidy_ne_nil {s : Bytes} {ss : List Bytes} : tidy (s :: ss) ≠ [] := by
  induction ss generalizing s with
  | nil => simp [tidy]
  | cons t ss ih =>
    rw [tidy]
    split_ifs
    · exact ih
    · simp

theorem endsInDirectory_cons (s t : Bytes) (ss : List Bytes) :
    endsInDirectory (s :: t :: ss) = endsInDirectory (t :: ss) := by
  rw [endsInDirectory, endsInDirectory, List.getLast?_cons_cons]

/-- The rules take the segments in turn, as the walk does. -/
theorem removeDots_tidy {ps : List Bytes} {s : Bytes} {ss : List Bytes} (hp : ∀ p ∈ ps, (0x2F : UInt8) ∉ p)
    (hs : ∀ t ∈ s :: ss, (0x2F : UInt8) ∉ t) :
    removeDots (spell (tidy (s :: ss))) (spell ps.reverse) =
      spell ((s :: ss).foldl enter ps).reverse ++ if endsInDirectory (s :: ss) then [0x2F] else [] := by
  -- what the walk has passed is in the output buffer
  induction ss generalizing s ps with
  | nil =>
    rw [List.forall_mem_cons] at hs
    simpa [tidy] using removeDots_last hp hs.1
  | cons t ss ih =>
    rw [List.forall_mem_cons] at hs
    rw [tidy, List.foldl_cons]
    by_cases h0 : s = []
    · have henter : enter ps s = ps := by rw [enter, if_pos (.inl h0)]
      rw [if_pos h0, ih hp hs.2, henter, endsInDirectory_cons]
    · obtain ⟨u, us, hu⟩ := List.exists_cons_of_ne_nil (@tidy_ne_nil t ss)
      have hrest : spell (tidy (t :: ss)) = 0x2F :: (u ++ spell us) := by rw [hu, spell_cons]
      rw [if_neg h0, spell_cons, hrest, removeDots_inner hp hs.1 h0, ← hrest, ih (notMem_enter hp hs.1) hs.2,
        endsInDirectory_cons]

/-! ## Single slashes -/

/-- The path behind a slash. -/
def rooted (path : Bytes) : Bytes := if path.head? = some 0x2F then path else 0x2F :: path

/-- One slash for every run of them. -/
def squeeze : Bytes → Bytes
  | [] => []
  | [b] => [b]
  | b :: c :: bs => if b = 0x2F ∧ c = 0x2F then squeeze (c :: bs) else b :: squeeze (c :: bs)

theorem squeeze_cons {b : UInt8} (h : b ≠ 0x2F) (bs : Bytes) : squeeze (b :: bs) = b :: squeeze bs := by
  cases bs with
  | nil => rfl
  | cons c bs => rw [squeeze, if_neg fun e => h e.1]

theorem squeeze_append {s : Bytes} (h : (0x2F : UInt8) ∉ s) (rest : Bytes) :
    squeeze (s ++ rest) = s ++ squeeze rest := by
  induction s with
  | nil => rfl
  | cons b s ih =>
    rw [List.mem_cons, not_or] at h
    rw [List.cons_append, squeeze_cons (Ne.symm h.1), ih h.2, List.cons_append]

theorem squeeze_slashes (rest : Bytes) : squeeze (0x2F :: 0x2F :: rest) = squeeze (0x2F :: rest) := by
  rw [squeeze, if_pos ⟨rfl, rfl⟩]

theorem squeeze_slash {s : Bytes} (h : (0x2F : UInt8) ∉ s) (hne : s ≠ []) (rest : Bytes) :
    squeeze (0x2F :: (s ++ rest)) = 0x2F :: (s ++ squeeze rest) := by
  rw [← squeeze_append h]
  cases s with
  | nil => exact absurd rfl hne
  | cons b s =>
    rw [List.mem_cons, not_or] at h
    rw [List.cons_append, squeeze, if_neg fun e => h.1 e.2.symm]

theorem squeeze_rooted (path : Bytes) : squeeze (rooted path) = squeeze (0x2F :: path) := by
  unfold rooted
  split_ifs with h
  · cases path with
    | nil => cases h
    | cons b path =>
      obtain rfl : b = 0x2F := Option.some.inj h
      rw [squeeze_slashes]
  · rfl

theorem squeeze_spell {s : Bytes} {ss : List Bytes} (hs : ∀ t ∈ s :: ss, (0x2F : UInt8) ∉ t) :
    squeeze (spell (s :: ss)) = spell (tidy (s :: ss)) := by
  induction ss generalizing s with
  | nil =>
    rw [List.forall_mem_cons] at hs
    by_cases h0 : s = []
    · subst h0
      rfl
    · rw [spell_cons, squeeze_slash hs.1 h0]
      rfl
  | cons t ss ih =>
    rw [List.forall_mem_cons] at hs
    rw [tidy]
    by_cases h0 : s = []
    · rw [if_pos h0, ← ih hs.2, h0, spell_cons, List.nil_append, spell_cons, squeeze_slashes]
    · rw [if_neg h0, spell_cons, squeeze_slash hs.1 h0, ih hs.2, spell_cons]

theorem squeeze_eq_self {path : Bytes} (h : ¬ [0x2F, 0x2F] <:+: path) : squeeze path = path := by
  induction path with
  | nil => rfl
  | cons b path ih =>
    have htail : ¬ [0x2F, 0x2F] <:+: path := fun h' => h (List.infix_cons h')
    cases path with
    | nil => rfl
    | cons c path =>
      rw [squeeze, if_neg, ih htail]
      rintro ⟨rfl, rfl⟩
      exact h ⟨[], path, rfl⟩

/-! ## The walk -/

/-- A segment that the walk goes into. -/
def IsNamed (s : Bytes) : Prop := s ≠ [] ∧ s ≠ dot ∧ s ≠ dotDot

theorem enter_of_isNamed {s : Bytes} (h : IsNamed s) (ps : List Bytes) : enter ps s = s :: ps := by
  rw [enter, if_neg (by simp [h.1, h.2.1]), if_neg h.2.2]

theorem isNamed_enter {ps : List Bytes} (h : ∀ p ∈ ps, IsNamed p) (s : Bytes) : ∀ p ∈ enter ps s, IsNamed p := by
  unfold enter
  split_ifs with h1 h2
  · exact h
  · exact fun p hp => h p (List.mem_of_mem_tail hp)
  · exact List.forall_mem_cons.2 ⟨⟨fun e => h1 (.inl e), fun e => h1 (.inr e), h2⟩, h⟩

/-- What every step keeps of the segments passed, the walk keeps. -/
theorem mem_walk {P : Bytes → Prop} {ss : List Bytes}
    (h : ∀ ps : List Bytes, (∀ p ∈ ps, P p) → ∀ s ∈ ss, ∀ p ∈ enter ps s, P p) : ∀ p ∈ walk ss, P p := by
  have main : ∀ ts ps : List Bytes, (∀ t ∈ ts, t ∈ ss) → (∀ p ∈ ps, P p) → ∀ p ∈ ts.foldl enter ps, P p := by
    intro ts
    induction ts with
    | nil => exact fun _ _ hp => hp
    | cons t ts ih =>
      intro ps hts hp
      rw [List.forall_mem_cons] at hts
      exact ih _ hts.2 (h ps hp t hts.1)
  intro p hp
  exact main ss [] (fun _ => id) (by simp) p (List.mem_reverse.1 hp)

theorem isNamed_walk (ss : List Bytes) : ∀ p ∈ walk ss, IsNamed p := mem_walk fun _ hp s _ => isNamed_enter hp s

theorem notMem_walk {ss : List Bytes} (h : ∀ s ∈ ss, (0x2F : UInt8) ∉ s) : ∀ p ∈ walk ss, (0x2F : UInt8) ∉ p :=
  mem_walk fun _ hp s hs => notMem_enter hp (h s hs)

theorem foldl_enter_of_isNamed {ss : List Bytes} (h : ∀ s ∈ ss, IsNamed s) (ps : List Bytes) :
    ss.foldl enter ps = ss.reverse ++ ps := by
  induction ss generalizing ps with
  | nil => rfl
  | cons s ss ih =>
    rw [List.forall_mem_cons] at h
    rw [List.foldl_cons, enter_of_isNamed h.1, ih h.2, List.reverse_cons, List.append_assoc, List.singleton_append]

theorem endsInDirectory_concat (ss : List Bytes) (s : Bytes) : endsInDirectory (ss ++ [s]) = true ↔ ¬ IsNamed s := by
  rw [endsInDirectory, List.getLast?_concat]
  simp only [IsNamed, Bool.or_eq_true, decide_eq_true_eq, not_and_or, not_not, or_assoc]

theorem walk_ne_nil {ss : List Bytes} (hne : ss ≠ []) (h : ¬ endsInDirectory ss = true) : walk ss ≠ [] := by
  obtain ⟨init, s, rfl⟩ := (List.eq_nil_or_concat' ss).resolve_left hne
  rw [endsInDirectory_concat, not_not] at h
  rw [walk, List.foldl_append, List.foldl_cons, List.foldl_nil, enter_of_isNamed h]
  simp

/-! ## Normal paths -/

/-- The segments of the normal path. An empty one at the end stands for the slash there. -/
def settled (ss : List Bytes) : List Bytes := walk ss ++ if endsInDirectory ss then [[]] else []

theorem settled_ne_nil {ss : List Bytes} (h : ss ≠ []) : settled ss ≠ [] := by
  unfold settled
  split_ifs with hend
  · simp
  · rw [List.append_nil]
    exact walk_ne_nil h hend

theorem notMem_settled {ss : List Bytes} (h : ∀ s ∈ ss, (0x2F : UInt8) ∉ s) :
    ∀ s ∈ settled ss, (0x2F : UInt8) ∉ s := by
  intro s hs
  rcases List.mem_append.1 hs with hs | hs
  · exact notMem_walk h s hs
  · split_ifs at hs
    · rw [List.mem_singleton.1 hs]
      simp
    · cases hs

theorem normalize_eq (path : Bytes) : normalize path = spell (settled (Bytes.splitOn 0x2F path)) := by
  have hne := Bytes.splitOn_ne_nil 0x2F path
  unfold normalize settled
  generalize Bytes.splitOn 0x2F path = ss at hne ⊢
  simp only
  by_cases hend : endsInDirectory ss = true
  · by_cases hw : walk ss = []
    · simp [hw, hend]
    · simp [hw, hend, spell_append, spell_eq_join hw]
  · simp [hend, spell_eq_join (walk_ne_nil hne hend)]

/-- The walk leads where the rules do. -/
theorem normalize_eq_removeDots (path : Bytes) : normalize path = removeDots (squeeze (rooted path)) [] := by
  have hslash : ∀ s ∈ Bytes.splitOn 0x2F path, (0x2F : UInt8) ∉ s := fun _ => Bytes.notMem_of_mem_splitOn
  obtain ⟨s, ss, hs⟩ := List.exists_cons_of_ne_nil (Bytes.splitOn_ne_nil 0x2F path)
  rw [squeeze_rooted, ← spell_splitOn, normalize_eq]
  rw [hs] at hslash ⊢
  have h := @removeDots_tidy [] s ss (by simp) hslash
  rw [List.reverse_nil, spell_nil] at h
  rw [squeeze_spell hslash, h, settled, spell_append, walk]
  split_ifs <;> simp

example : removeDots (utf8 "/a/b/c/./../../g") [] = utf8 "/a/g" := by decide +kernel

theorem splitOn_normalize (path : Bytes) :
    Bytes.splitOn 0x2F (normalize path) = [] :: settled (Bytes.splitOn 0x2F path) := by
  rw [normalize_eq]
  exact splitOn_spell (settled_ne_nil (Bytes.splitOn_ne_nil 0x2F path))
    (notMem_settled fun _ => Bytes.notMem_of_mem_splitOn)

/-- Settled segments stay as they are, also behind a slash. -/
theorem settled_settled {ss : List Bytes} (h : ss ≠ []) : settled ([] :: settled ss) = settled ss := by
  have hw : ([] :: walk ss).foldl enter [] = (walk ss).reverse := by
    rw [List.foldl_cons, enter, if_pos (.inl rfl), foldl_enter_of_isNamed (isNamed_walk ss), List.append_nil]
  unfold settled
  by_cases hend : endsInDirectory ss = true
  · have hlast : endsInDirectory ([] :: (walk ss ++ [[]])) = true := by
      rw [← List.cons_append]
      exact (endsInDirectory_concat _ _).2 fun hs => hs.1 rfl
    rw [if_pos hend, if_pos hlast, walk, ← List.cons_append, List.foldl_append, hw, List.foldl_cons, enter,
      if_pos (.inl rfl), List.foldl_nil, List.reverse_reverse]
  · obtain ⟨init, s, hs⟩ := (List.eq_nil_or_concat' (walk ss)).resolve_left (walk_ne_nil h hend)
    have hlast : ¬ endsInDirectory ([] :: walk ss) = true := by
      rw [hs, ← List.cons_append, endsInDirectory_concat, not_not]
      exact isNamed_walk ss s (by simp [hs])
    rw [if_neg hend, List.append_nil, if_neg hlast, walk, hw, List.reverse_reverse, List.append_nil]

theorem normalize_normalize (path : Bytes) : normalize (normalize path) = normalize path := by
  rw [normalize_eq (normalize path), splitOn_normalize, settled_settled (Bytes.splitOn_ne_nil 0x2F path),
    ← normalize_eq]

/-! ## The slash at the end -/

theorem getLast?_spell_concat (ss : List Bytes) (s : Bytes) : (spell (ss ++ [s])).getLast? = (0x2F :: s).getLast? := by
  rw [spell_append, spell_cons, spell_nil, List.append_nil, List.getLast?_append_of_ne_nil _ (by simp)]

theorem getLast?_normalize (path : Bytes) :
    (normalize path).getLast? = some 0x2F ↔ endsInDirectory (Bytes.splitOn 0x2F path) = true := by
  have hne := Bytes.splitOn_ne_nil 0x2F path
  have hslash : ∀ s ∈ Bytes.splitOn 0x2F path, (0x2F : UInt8) ∉ s := fun _ => Bytes.notMem_of_mem_splitOn
  rw [normalize_eq]
  generalize Bytes.splitOn 0x2F path = ss at hne hslash ⊢
  by_cases hend : endsInDirectory ss = true
  · rw [settled, if_pos hend, getLast?_spell_concat]
    simp [hend]
  · obtain ⟨init, s, hs⟩ := (List.eq_nil_or_concat' (walk ss)).resolve_left (walk_ne_nil hne hend)
    have hmem : s ∈ walk ss := by simp [hs]
    rw [settled, if_neg hend, List.append_nil, hs, getLast?_spell_concat]
    refine iff_of_false (fun h => ?_) hend
    -- the path ends in a named segment, which has a last byte
    obtain ⟨b, bs, rfl⟩ := List.exists_cons_of_ne_nil (isNamed_walk ss s hmem).1
    rw [List.getLast?_cons_cons] at h
    exact notMem_walk hslash _ hmem (List.mem_of_getLast? h)

/-- What a path ends in is its last segment. -/
theorem suffix_rooted {s : Bytes} (hs : (0x2F : UInt8) ∉ s) (path : Bytes) :
    0x2F :: s <:+ rooted path ↔ (Bytes.splitOn 0x2F path).getLast? = some s := by
  have hroot : 0x2F :: s <:+ rooted path ↔ 0x2F :: s <:+ 0x2F :: path := by
    unfold rooted
    split_ifs with h
    · rw [List.suffix_cons_iff]
      refine ⟨.inr, ?_⟩
      rintro (e | h')
      · exact absurd ((List.cons.inj e).2 ▸ List.mem_of_mem_head? h) hs
      · exact h'
    · rfl
  rw [hroot]
  constructor
  · rintro ⟨front, h⟩
    have hsplit := congrArg (Bytes.splitOn 0x2F) h
    rw [Bytes.splitOn_append_cons, Bytes.splitOn_of_notMem hs, splitOn_slash] at hsplit
    have hlast := congrArg List.getLast? hsplit
    rw [List.getLast?_concat, List.getLast?_cons_of_ne_nil (Bytes.splitOn_ne_nil 0x2F path)] at hlast
    exact hlast.symm
  · intro h
    obtain ⟨init, hinit⟩ := List.getLast?_eq_some_iff.1 h
    refine ⟨spell init, ?_⟩
    have hspell := spell_splitOn path
    rw [hinit, spell_append] at hspell
    rw [← hspell]
    simp

theorem endsInDirectory_iff (path : Bytes) :
    endsInDirectory (Bytes.splitOn 0x2F path) = true ↔ ∃ s ∈ [[], dot, dotDot], 0x2F :: s <:+ rooted path := by
  have hslash : ∀ s ∈ [[], dot, dotDot], (0x2F : UInt8) ∉ s := by decide
  obtain ⟨init, s, hs⟩ :=
    (List.eq_nil_or_concat' (Bytes.splitOn 0x2F path)).resolve_left (Bytes.splitOn_ne_nil 0x2F path)
  have hlast : ∀ t ∈ [[], dot, dotDot], (0x2F :: t <:+ rooted path ↔ s = t) := by
    intro t ht
    rw [suffix_rooted (hslash t ht), hs, List.getLast?_concat, Option.some.injEq]
  simp only [List.forall_mem_cons] at hlast
  rw [hs, endsInDirectory_concat]
  simp only [List.exists_mem_cons_iff, hlast.1, hlast.2.1, hlast.2.2.1, IsNamed, not_and_or, not_not, List.not_mem_nil,
    false_and, exists_false, or_false]

/-! ## Paths without dots -/

/-- Where there is no dot only rule E applies. -/
theorem rewrite_of_notMem {input : Bytes} (h : (0x2E : UInt8) ∉ input) (output : Bytes) :
    rewrite input output =
      ((input.drop 1).dropWhile (· != 0x2F), output ++ (input.take 1 ++ (input.drop 1).takeWhile (· != 0x2F))) := by
  have hfront : ∀ d : Bytes, (0x2E : UInt8) ∈ d → ¬ d <+: input := fun d hd hp => h (hp.subset hd)
  have hwhole : ∀ d : Bytes, (0x2E : UInt8) ∈ d → ¬ input = d := fun d hd e => h (e ▸ hd)
  unfold rewrite
  rw [if_neg (hfront _ (by decide)), if_neg (hfront _ (by decide)), if_neg (hfront _ (by decide)),
    if_neg (hwhole _ (by decide)), if_neg (hfront _ (by decide)), if_neg (hwhole _ (by decide)), if_neg]
  rintro (e | e)
  · exact hwhole dot (by decide) e
  · exact hwhole dotDot (by decide) e

theorem removeDots_of_notMem {input : Bytes} (h : (0x2E : UInt8) ∉ input) (output : Bytes) :
    removeDots input output = output ++ input := by
  fun_induction removeDots input output with
  | case1 output => rw [List.append_nil]
  | case2 input output hne ih =>
    rw [rewrite_of_notMem h] at ih ⊢
    have hrest : (0x2E : UInt8) ∉ (input.drop 1).dropWhile (· != 0x2F) :=
      fun hm => h (List.mem_of_mem_drop ((List.dropWhile_sublist _).subset hm))
    rw [ih hrest]
    simp only [List.append_assoc, List.takeWhile_append_dropWhile, List.take_append_drop]

theorem normalize_eq_rooted {path : Bytes} (hdot : (0x2E : UInt8) ∉ path)
    (hslash : ¬ [0x2F, 0x2F] <:+: rooted path) : normalize path = rooted path := by
  have hrooted : (0x2E : UInt8) ∉ rooted path := by
    unfold rooted
    split_ifs
    · exact hdot
    · simpa using hdot
  rw [normalize_eq_removeDots, squeeze_eq_self hslash, removeDots_of_notMem hrooted, List.nil_append]

/-! ## Encoded paths -/

/-- Unreserved bytes, slashes and escapes. -/
inductive IsEncoded : Bytes → Prop where
  | nil : IsEncoded []
  | plain {b : UInt8} {bs : Bytes} (h : Percent.isUnreserved b = true ∨ b = 0x2F) (hbs : IsEncoded bs) :
    IsEncoded (b :: bs)
  | escape {high low : UInt8} {bs : Bytes} (hh : Hex.isUpperHex high = true) (hl : Hex.isUpperHex low = true)
    (hbs : IsEncoded bs) : IsEncoded (0x25 :: high :: low :: bs)

theorem isEncoded_encode (bs : Bytes) : IsEncoded (Percent.encode isPlain bs) := by
  induction bs with
  | nil => exact .nil
  | cons b bs ih =>
    rw [Percent.encode, List.flatMap_cons, ← Percent.encode]
    by_cases hb : isPlain b = true
    · rw [if_pos hb]
      rw [isPlain, Bool.or_eq_true, beq_iff_eq] at hb
      exact .plain hb ih
    · rw [if_neg hb]
      obtain ⟨hh, hl⟩ := Hex.isUpperHex_upperDigit b
      exact .escape hh hl ih

/-! ## What a canonical path says -/

/-- A normal path is what the rules leave of the path behind a slash, with single slashes: the path itself unless
it has dots or double slashes. It has named segments only, ends in a slash where the path ends in a directory,
and is normal already. Its encoded form says which one it is. -/
theorem normalize_dotFree (path : Bytes) :
    normalize path = removeDots (squeeze (rooted path)) [] ∧
      (normalize path = rooted path ∨ 0x2E ∈ path ∨ [0x2F, 0x2F] <:+: rooted path) ∧
      (normalize path).head? = some 0x2F ∧
      (∃ kept, (∀ s ∈ kept, s ≠ [] ∧ s ≠ dot ∧ s ≠ dotDot) ∧
        (Bytes.splitOn 0x2F (normalize path) = [] :: kept ∨
          Bytes.splitOn 0x2F (normalize path) = [] :: kept ++ [[]])) ∧
      ((normalize path).getLast? = some 0x2F ↔ ∃ s ∈ [[], dot, dotDot], 0x2F :: s <:+ rooted path) ∧
      normalize (normalize path) = normalize path ∧
      IsEncoded (canonical path) ∧ Percent.decode (canonical path) = normalize path ∧
      ∀ other, canonical path = canonical other ↔ normalize path = normalize other := by
  refine ⟨normalize_eq_removeDots path, ?_, rfl, ⟨walk (Bytes.splitOn 0x2F path), isNamed_walk _, ?_⟩,
    (getLast?_normalize path).trans (endsInDirectory_iff path), normalize_normalize path, isEncoded_encode _,
    Percent.decode_encode (by decide) _, fun _ => Canonical.canonical_inj⟩
  · by_contra h
    rw [not_or, not_or] at h
    exact h.1 (normalize_eq_rooted h.2.1 h.2.2)
  · rw [splitOn_normalize, settled]
    split_ifs
    · exact .inr rfl
    · exact .inl (by rw [List.append_nil])

example : normalize (utf8 "/prod//pets/../%2E/...") = utf8 "/prod/%2E/..." := by decide +kernel

end SigV4.Path
