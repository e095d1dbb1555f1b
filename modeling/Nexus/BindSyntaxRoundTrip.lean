import Nexus.BindSyntax

namespace Nexus

namespace Text

theorem toNat_toUpper (c : Char) :
    c.toUpper.toNat = if 97 ≤ c.toNat ∧ c.toNat ≤ 122 then c.toNat - 32 else c.toNat := by
  have hle : ∀ bound : UInt32, c.val ≤ bound ↔ c.toNat ≤ bound.toNat := fun _ => UInt32.le_iff_toNat_le
  have hge : ∀ bound : UInt32, bound ≤ c.val ↔ bound.toNat ≤ c.toNat := fun _ => UInt32.le_iff_toNat_le
  by_cases h : 'a'.val ≤ c.val ∧ c.val ≤ 'z'.val
  · have hnat : 97 ≤ c.toNat ∧ c.toNat ≤ 122 := ⟨(hge _).mp h.1, (hle _).mp h.2⟩
    rw [if_pos hnat]
    unfold Char.toUpper
    rw [dif_pos h]
    change (c.val + ('A'.val - 'a'.val)).toNat = _
    rw [UInt32.toNat_add]
    change (c.toNat + 4294967264) % 4294967296 = c.toNat - 32
    omega
  · have hnat : ¬(97 ≤ c.toNat ∧ c.toNat ≤ 122) := fun hboth =>
      h ⟨(hge _).mpr hboth.1, (hle _).mpr hboth.2⟩
    rw [if_neg hnat]
    unfold Char.toUpper
    rw [dif_neg h]

theorem toUpper_toUpper (c : Char) : c.toUpper.toUpper = c.toUpper := by
  refine Char.toNat_inj.mp ?_
  rw [toNat_toUpper c.toUpper, toNat_toUpper c, if_neg]
  split <;> omega

theorem asciiUppercase_asciiUppercase (text : Text) :
    text.asciiUppercase.asciiUppercase = text.asciiUppercase := by
  unfold asciiUppercase
  rw [List.map_map]
  exact List.map_congr_left fun c _ => toUpper_toUpper c

theorem trim_space (text : Text) : trim (' ' :: text) = trim text := by
  unfold trim
  rw [List.dropWhile_cons_of_pos (by decide)]

end Text

open Text

theorem bindParts_space (tail : Text) : bindParts (' ' :: tail) = bindParts tail := by
  unfold bindParts
  rw [List.splitOn_cons_eq_if_modifyHead, if_neg (by decide)]
  rcases tail.splitOn '+' with _ | ⟨_, _⟩
  · rfl
  · rw [List.modifyHead_cons, List.map_cons, List.map_cons, trim_space]

theorem bindParts_append {part : Text} (hplus : '+' ∉ part) (tail : Text) :
    bindParts (part ++ '+' :: tail) = part.trim :: bindParts tail := by
  unfold bindParts
  rw [List.splitOn_eq_splitOnP, List.splitOnP_append_cons_of_forall_mem, List.map_cons]
  · rfl
  · intro c hc
    exact beq_eq_false_iff_ne.mpr fun heq => hplus (heq ▸ hc)
  · rfl

structure Written (part : Text) : Prop where
  plus : '+' ∉ part
  trim : part.trim = part
  padded : (part ++ [' ']).trim = part

theorem Written.bindParts {part : Text} (h : Written part) (padded : Bool) (tail : Text) :
    bindParts (part ++ (bindSeparator padded ++ tail)) = part :: Nexus.bindParts tail := by
  cases padded with
  | false =>
    exact (bindParts_append h.plus tail).trans (by rw [h.trim])
  | true =>
    have hplus : '+' ∉ part ++ [' '] := by
      intro hmem
      rcases List.mem_append.mp hmem with hpart | hspace
      · exact h.plus hpart
      · exact absurd (List.mem_singleton.mp hspace) (by decide)
    have hsplit := bindParts_append hplus (' ' :: tail)
    rw [h.padded, bindParts_space, List.append_assoc] at hsplit
    exact hsplit

theorem bindParts_intercalate {parts : List Text} (hparts : ∀ part ∈ parts, Written part)
    (padded : Bool) (key : Text) :
    bindParts ((bindSeparator padded).intercalate (parts ++ [key])) = parts ++ bindParts key := by
  induction parts with
  | nil =>
    rw [List.nil_append, List.nil_append]
    simp [List.intercalate]
  | cons part rest ih =>
    have hrest := ih fun other hother => hparts other (List.mem_cons_of_mem _ hother)
    have hfirst := (hparts part List.mem_cons_self).bindParts padded
      ((bindSeparator padded).intercalate (rest ++ [key]))
    rw [hrest] at hfirst
    rw [List.cons_append, List.cons_append, ← hfirst]
    cases rest with
    | nil | cons => simp [List.intercalate]

theorem written_modifierParts (bind : InputBind) : ∀ part ∈ modifierParts bind, Written part := by
  have halt : Written "ALT".toList := ⟨by decide, by decide, by decide⟩
  have hcontrol : Written "CTRL".toList := ⟨by decide, by decide, by decide⟩
  have hshift : Written "SHIFT".toList := ⟨by decide, by decide, by decide⟩
  unfold modifierParts
  intro part hpart
  rcases List.mem_append.mp hpart with hfirst | hthird
  · rcases List.mem_append.mp hfirst with hfirst | hsecond
    · split at hfirst
      · exact List.mem_singleton.mp hfirst ▸ halt
      · cases hfirst
    · split at hsecond
      · exact List.mem_singleton.mp hsecond ▸ hcontrol
      · cases hsecond
  · split at hthird
    · exact List.mem_singleton.mp hthird ▸ hshift
    · cases hthird

theorem parseParts_modifierParts (bind : InputBind) {rest : List Text} (hrest : rest ≠ []) :
    parseParts (modifierParts bind ++ rest) .default = parseParts rest bind.modifiers := by
  obtain ⟨_, _, rfl⟩ := List.exists_cons_of_ne_nil hrest
  obtain ⟨alt, control, shift, _, _⟩ := bind
  cases alt <;> cases control <;> cases shift <;> rfl

def namedModifiers (front : List Text) : Option (List Modifier) :=
  front.mapM fun part => modifierNamed part.asciiUppercase

theorem parseParts_append (front : List Text) (last : Text) (modifiers : ModifierState) :
    parseParts (front ++ [last]) modifiers =
      match namedModifiers front with
      | none => .error .invalidSyntax
      | some named =>
        if last.asciiUppercase = [] then .error .invalidSyntax
        else .ok (named.foldl (fun state modifier => state.set modifier true) modifiers,
          last.asciiUppercase) := by
  induction front generalizing modifiers with
  | nil => rfl
  | cons part rest ih =>
    have hstep : parseParts (part :: (rest ++ [last])) modifiers =
        (modifierNamed part.asciiUppercase).elim (.error .invalidSyntax) fun modifier =>
          parseParts (rest ++ [last]) (modifiers.set modifier true) := by
      cases rest <;> cases hnamed : modifierNamed part.asciiUppercase <;> simp [parseParts, hnamed]
    rw [List.cons_append, hstep]
    unfold namedModifiers at ih ⊢
    rcases hnamed : modifierNamed part.asciiUppercase with _ | modifier
    · simp [hnamed]
    · rw [Option.elim_some, ih, List.mapM_cons, hnamed]
      generalize rest.mapM (fun part => modifierNamed part.asciiUppercase) = named
      cases named <;> rfl

theorem get_foldl_set (named : List Modifier) (state : ModifierState) (modifier : Modifier) :
    (named.foldl (fun state modifier => state.set modifier true) state).get modifier =
      (state.get modifier || decide (modifier ∈ named)) := by
  induction named generalizing state with
  | nil => simp
  | cons first _ ih =>
    rw [List.foldl_cons, ih, ModifierState.get_set]
    by_cases hsame : modifier = first
    · simp [hsame]
    · simp [hsame]

theorem foldl_set_eq_iff (named : List Modifier) (state : ModifierState) :
    named.foldl (fun state modifier => state.set modifier true) state = state ↔
      ∀ modifier ∈ named, state.get modifier = true := by
  constructor
  · intro heq modifier hmem
    have hget := get_foldl_set named state modifier
    rw [heq, decide_eq_true hmem, Bool.or_true] at hget
    exact hget
  · intro hall
    refine ModifierState.ext_get fun modifier => ?_
    rw [get_foldl_set]
    by_cases hmem : modifier ∈ named
    · rw [hall modifier hmem, Bool.true_or]
    · rw [decide_eq_false hmem, Bool.or_false]

/-- The key text reads as the key of the binding, behind modifiers that the binding needs anyway. -/
def ReadsBack (resolver : KeyNameResolver) (bind : InputBind) (key : Text) : Prop :=
  ∃ front last named, bindParts key = front ++ [last] ∧ namedModifiers front = some named ∧
    (∀ modifier ∈ named, bind.requires modifier = true) ∧ last.asciiUppercase ≠ [] ∧
    resolveKey resolver last.asciiUppercase = .ok (bind.device, bind.code)

theorem bindParts_ne_nil (key : Text) : bindParts key ≠ [] := by
  unfold bindParts
  exact fun h => List.splitOn_ne_nil '+' key (List.map_eq_nil_iff.mp h)

variable {resolver : KeyNameResolver} {bind : InputBind} {key : Text}

theorem formatBind_of_key (hbound : bind.isBound = true) (hkey : keyText bind resolver = some key)
    (padded : Bool) :
    formatBind bind resolver padded =
      (bindSeparator padded).intercalate (modifierParts bind ++ [key.asciiUppercase]) := by
  unfold formatBind
  rw [if_pos hbound, hkey]

/-- A formatted binding parses back exactly if it is short enough, is not the null token and its key
text reads back. -/
theorem parseBind_formatBind_iff (hbound : bind.isBound = true)
    (hkey : keyText bind resolver = some key) (padded : Bool) :
    parseBind (formatBind bind resolver padded) resolver = .ok bind ↔
      (formatBind bind resolver padded).byteLength ≤ 256 ∧
      (formatBind bind resolver padded).eqIgnoreAsciiCase nullBind = false ∧
      ReadsBack resolver bind key.asciiUppercase := by
  unfold parseBind
  by_cases hlong : 256 < (formatBind bind resolver padded).byteLength
  · rw [if_pos hlong]
    exact ⟨nofun, fun h => absurd h.1 (Nat.not_le_of_lt hlong)⟩
  · rw [if_neg hlong]
    by_cases hnull : (formatBind bind resolver padded).eqIgnoreAsciiCase nullBind = true
    · rw [if_pos hnull]
      refine ⟨fun h => ?_, fun h => absurd (hnull.symm.trans h.2.1) nofun⟩
      cases h
      cases hbound
    · rw [if_neg hnull]
      have hfree : (formatBind bind resolver padded).eqIgnoreAsciiCase nullBind = false :=
        Bool.eq_false_iff.mpr hnull
      rw [hfree, formatBind_of_key hbound hkey, bindParts_intercalate (written_modifierParts bind),
        parseParts_modifierParts bind (bindParts_ne_nil _)]
      have hshort := Nat.le_of_not_lt hlong
      rw [formatBind_of_key hbound hkey] at hshort
      obtain ⟨front, last, hparts⟩ : ∃ front last,
          bindParts key.asciiUppercase = front ++ [last] :=
        ⟨_, _, (List.dropLast_append_getLast (bindParts_ne_nil _)).symm⟩
      rw [hparts, parseParts_append]
      constructor
      · intro hparse
        refine ⟨hshort, rfl, front, last, ?_⟩
        rcases hnamed : namedModifiers front with _ | named
        · rw [hnamed] at hparse
          cases hparse
        · rw [hnamed] at hparse
          dsimp only at hparse
          by_cases hempty : last.asciiUppercase = []
          · rw [if_pos hempty] at hparse
            cases hparse
          · rw [if_neg hempty] at hparse
            change (resolveKey resolver last.asciiUppercase >>= _) = _ at hparse
            obtain ⟨⟨_, _⟩, hresolved, hbind⟩ := except_bind_ok hparse
            have hbind := Except.ok.inj hbind
            refine ⟨named, hparts, rfl, ?_, hempty, ?_⟩
            · have hsame : named.foldl (fun state modifier => state.set modifier true)
                  bind.modifiers = bind.modifiers := by
                conv_rhs => rw [← hbind]
                rfl
              intro modifier hmem
              have hget := (foldl_set_eq_iff named bind.modifiers).mp hsame modifier hmem
              rwa [InputBind.modifiers_get] at hget
            · rw [hresolved, ← hbind]
      · rintro ⟨_, _, otherFront, otherLast, named, hother, hnamed, hneeded, hne, hresolved⟩
        obtain ⟨rfl, hlast⟩ := List.append_inj' (hparts.symm.trans hother) rfl
        cases hlast
        rw [hnamed]
        dsimp only
        have hsame : named.foldl (fun state modifier => state.set modifier true) bind.modifiers =
            bind.modifiers := by
          refine (foldl_set_eq_iff named bind.modifiers).mpr fun modifier hmem => ?_
          rw [InputBind.modifiers_get]
          exact hneeded modifier hmem
        rw [if_neg hne, hsame]
        change (resolveKey resolver _ >>= _) = _
        rw [hresolved]
        rfl

def KeyNameResolver.ResolvesBack (resolver : KeyNameResolver) : Prop :=
  ∀ code name, resolver.keyName code = some name → resolver.scanCode name.asciiUppercase = some code

/-- The key has a name that nothing else in the syntax looks like, or none and the resolver leaves
its literal alone. A mouse button always has one. -/
def PlainKey (resolver : KeyNameResolver) (bind : InputBind) : Prop :=
  bind.device = .mouse ∨
    match resolver.keyName bind.code with
    | some name => name ≠ [] ∧ '+' ∉ name ∧ name.trim = name ∧ mouseNamed name.asciiUppercase = none
    | none => ∀ code, resolver.scanCode (scanCodeLiteral bind.code) = some code → code = bind.code

theorem readsBack_of_single (hparts : bindParts key.asciiUppercase = [key.asciiUppercase])
    (hne : key.asciiUppercase ≠ [])
    (hresolved : resolveKey resolver key.asciiUppercase = .ok (bind.device, bind.code)) :
    ReadsBack resolver bind key.asciiUppercase := by
  refine ⟨[], key.asciiUppercase, [], hparts, rfl, nofun, ?_, ?_⟩
  · rwa [asciiUppercase_asciiUppercase]
  · rwa [asciiUppercase_asciiUppercase]

theorem hexDigitValue_upperHexDigit {n : Nat} (h : n < 16) :
    hexDigitValue (upperHexDigit n) = some n := by
  have hall : ∀ digit < 16, hexDigitValue (upperHexDigit digit) = some digit := by decide
  exact hall n h

theorem upperHexDigit_ne {n : Nat} (h : n < 16) :
    upperHexDigit n ≠ '+' ∧ isWhiteSpace (upperHexDigit n) = false ∧
      (upperHexDigit n).toUpper = upperHexDigit n := by
  have hall : ∀ digit < 16, upperHexDigit digit ≠ '+' ∧ isWhiteSpace (upperHexDigit digit) = false ∧
      (upperHexDigit digit).toUpper = upperHexDigit digit := by decide
  exact hall n h

variable {code : Fin (2 ^ 16)}

theorem parseScanCodeLiteral_scanCodeLiteral (hcode : code ≠ 0) :
    parseScanCodeLiteral (scanCodeLiteral code) = some code := by
  have hlt : code.val < 65536 := code.isLt
  have h₁ : code.val / 4096 < 16 := by omega
  have h₂ : code.val / 256 % 16 < 16 := Nat.mod_lt _ (by decide)
  have h₃ : code.val / 16 % 16 < 16 := Nat.mod_lt _ (by decide)
  have h₄ : code.val % 16 < 16 := Nat.mod_lt _ (by decide)
  have hhead : ¬[upperHexDigit (code.val / 4096), upperHexDigit (code.val / 256 % 16),
      upperHexDigit (code.val / 16 % 16), upperHexDigit (code.val % 16)].head? = some '+' :=
    fun h => (upperHexDigit_ne h₁).1 (Option.some.inj h)
  have hdigits : parseHex16 [upperHexDigit (code.val / 4096), upperHexDigit (code.val / 256 % 16),
      upperHexDigit (code.val / 16 % 16), upperHexDigit (code.val % 16)] = some code := by
    unfold parseHex16
    rw [if_neg hhead]
    dsimp only
    rw [if_neg (List.cons_ne_nil _ _)]
    have hvalues : [upperHexDigit (code.val / 4096), upperHexDigit (code.val / 256 % 16),
        upperHexDigit (code.val / 16 % 16), upperHexDigit (code.val % 16)].mapM hexDigitValue =
        some [code.val / 4096, code.val / 256 % 16, code.val / 16 % 16, code.val % 16] := by
      simp only [List.mapM_cons, List.mapM_nil, hexDigitValue_upperHexDigit h₁,
        hexDigitValue_upperHexDigit h₂, hexDigitValue_upperHexDigit h₃,
        hexDigitValue_upperHexDigit h₄, Option.pure_def, Option.bind_eq_bind, Option.bind_some]
    have hvalue : [code.val / 4096, code.val / 256 % 16, code.val / 16 % 16, code.val % 16].foldl
        (fun value digit => value * 16 + digit) 0 = code.val := by
      simp only [List.foldl_cons, List.foldl_nil]
      omega
    rw [hvalues]
    dsimp only
    split
    next => exact congrArg some (Fin.ext hvalue)
    next hlarge => exact absurd (lt_of_eq_of_lt hvalue code.isLt) hlarge
  change (parseHex16 [upperHexDigit (code.val / 4096), upperHexDigit (code.val / 256 % 16),
    upperHexDigit (code.val / 16 % 16), upperHexDigit (code.val % 16)]).filter _ = some code
  rw [hdigits, Option.filter_some, if_pos (decide_eq_true hcode)]

theorem asciiUppercase_scanCodeLiteral (code : Fin (2 ^ 16)) :
    (scanCodeLiteral code).asciiUppercase = scanCodeLiteral code := by
  have hlt : code.val < 65536 := code.isLt
  have h₁ : code.val / 4096 < 16 := by omega
  have h₂ : code.val / 256 % 16 < 16 := Nat.mod_lt _ (by decide)
  have h₃ : code.val / 16 % 16 < 16 := Nat.mod_lt _ (by decide)
  have h₄ : code.val % 16 < 16 := Nat.mod_lt _ (by decide)
  unfold asciiUppercase scanCodeLiteral
  simp only [List.map_cons, List.map_nil, (upperHexDigit_ne h₁).2.2, (upperHexDigit_ne h₂).2.2,
    (upperHexDigit_ne h₃).2.2, (upperHexDigit_ne h₄).2.2]
  rfl

theorem bindParts_single (hplus : '+' ∉ key) (htrim : key.trim = key) : bindParts key = [key] := by
  unfold bindParts
  rw [List.splitOn_eq_singleton hplus, List.map_singleton, htrim]

theorem trim_scanCodeLiteral (code : Fin (2 ^ 16)) :
    (scanCodeLiteral code).trim = scanCodeLiteral code := by
  have h₄ : code.val % 16 < 16 := Nat.mod_lt _ (by decide)
  unfold trim scanCodeLiteral
  rw [List.dropWhile_cons_of_neg (by decide), List.rdropWhile_eq_self_iff]
  intro _ hspace
  exact absurd ((upperHexDigit_ne h₄).2.1.symm.trans hspace) Bool.false_ne_true

theorem plus_not_mem_scanCodeLiteral (code : Fin (2 ^ 16)) : '+' ∉ scanCodeLiteral code := by
  have hlt : code.val < 65536 := code.isLt
  have h₁ : code.val / 4096 < 16 := by omega
  have h₂ : code.val / 256 % 16 < 16 := Nat.mod_lt _ (by decide)
  have h₃ : code.val / 16 % 16 < 16 := Nat.mod_lt _ (by decide)
  have h₄ : code.val % 16 < 16 := Nat.mod_lt _ (by decide)
  unfold scanCodeLiteral
  simp [(upperHexDigit_ne h₁).1.symm, (upperHexDigit_ne h₂).1.symm, (upperHexDigit_ne h₃).1.symm,
    (upperHexDigit_ne h₄).1.symm]

theorem mouseNamed_scanCodeLiteral (code : Fin (2 ^ 16)) :
    mouseNamed (scanCodeLiteral code) = none := by
  unfold mouseNamed scanCodeLiteral
  simp

theorem isWhiteSpace_toUpper (c : Char) : isWhiteSpace c.toUpper = isWhiteSpace c := by
  unfold isWhiteSpace
  rw [toNat_toUpper]
  split
  next =>
    refine decide_eq_decide.mpr ?_
    omega
  next => rfl

theorem trim_asciiUppercase {text : Text} (h : text.trim = text) :
    text.asciiUppercase.trim = text.asciiUppercase := by
  have hspace : isWhiteSpace ∘ Char.toUpper = isWhiteSpace := funext isWhiteSpace_toUpper
  unfold trim asciiUppercase List.rdropWhile at *
  rw [List.dropWhile_map, hspace, ← List.map_reverse, List.dropWhile_map, hspace,
    ← List.map_reverse, h]

theorem plus_not_mem_asciiUppercase {text : Text} (h : '+' ∉ text) : '+' ∉ text.asciiUppercase := by
  intro hmem
  obtain ⟨c, hc, hupper⟩ := List.mem_map.mp hmem
  have hnat := toNat_toUpper c
  rw [hupper] at hnat
  have hplus : c.toNat = '+'.toNat := by
    split at hnat
    next =>
      change 43 = c.toNat - 32 at hnat
      omega
    next => exact hnat.symm
  exact h (Char.toNat_inj.mp hplus ▸ hc)

theorem resolveKey_of_code (hmouse : mouseNamed key = none)
    (hcode : (resolver.scanCode key).or (parseScanCodeLiteral key) = some code) :
    resolveKey resolver key = .ok (.keyboard, code) := by
  unfold resolveKey
  rw [hmouse, hcode]

theorem PlainKey.readsBack (hresolver : resolver.ResolvesBack) (hbound : bind.isBound = true)
    (hkey : keyText bind resolver = some key) (hplain : PlainKey resolver bind) :
    ReadsBack resolver bind key.asciiUppercase := by
  have hcode : bind.code ≠ 0 := by
    unfold InputBind.isBound at hbound
    exact (of_decide_eq_true hbound).2
  unfold keyText at hkey
  by_cases hmouse : bind.device = .mouse
  · rw [if_pos hmouse] at hkey
    unfold mouseName at hkey
    have hall : ∀ button : MouseButton, MouseButton.fromCode bind.code = some button → ∀ name : Text,
        name.asciiUppercase = name → bindParts name = [name] → name ≠ [] →
        mouseNamed name = some button → ReadsBack resolver bind name.asciiUppercase := by
      intro button hbutton name hupper hparts hne hnamed
      refine readsBack_of_single (by rw [hupper, hparts]) (by rw [hupper]; exact hne) ?_
      unfold resolveKey
      rw [hupper, hnamed, hmouse]
      dsimp only
      rw [MouseButton.code_of_fromCode hbutton]
    split at hkey
    next hbutton => cases hkey; exact hall _ hbutton _ (by decide) (by decide) (by decide) (by decide)
    next hbutton => cases hkey; exact hall _ hbutton _ (by decide) (by decide) (by decide) (by decide)
    next hbutton => cases hkey; exact hall _ hbutton _ (by decide) (by decide) (by decide) (by decide)
    next hbutton => cases hkey; exact hall _ hbutton _ (by decide) (by decide) (by decide) (by decide)
    next hbutton => cases hkey; exact hall _ hbutton _ (by decide) (by decide) (by decide) (by decide)
    next => cases hkey
  · rw [if_neg hmouse] at hkey
    by_cases hkeyboard : bind.device = .keyboard
    · rw [if_pos hkeyboard] at hkey
      have hreads := hplain.resolve_left hmouse
      rcases hname : resolver.keyName bind.code with _ | name
      · rw [hname] at hkey hreads
        cases hkey
        rw [Option.getD_none, asciiUppercase_scanCodeLiteral]
        have hupper := asciiUppercase_scanCodeLiteral bind.code
        have hsingle := bindParts_single (plus_not_mem_scanCodeLiteral bind.code)
          (trim_scanCodeLiteral bind.code)
        rw [← hupper]
        refine readsBack_of_single (by rw [hupper, hsingle]) (by rw [hupper]; nofun) ?_
        rw [hupper, hkeyboard]
        refine resolveKey_of_code (mouseNamed_scanCodeLiteral bind.code) ?_
        rcases hscan : resolver.scanCode (scanCodeLiteral bind.code) with _ | code
        · rw [Option.none_or, parseScanCodeLiteral_scanCodeLiteral hcode]
        · rw [Option.some_or, hreads code hscan]
      · rw [hname] at hkey hreads
        cases hkey
        rw [Option.getD_some]
        obtain ⟨hne, hplus, htrim, hnamed⟩ := hreads
        refine readsBack_of_single
          (bindParts_single (plus_not_mem_asciiUppercase hplus) (trim_asciiUppercase htrim)) ?_ ?_
        · exact fun hempty => hne (List.map_eq_nil_iff.mp hempty)
        · rw [hkeyboard]
          refine resolveKey_of_code hnamed ?_
          rw [hresolver bind.code name hname, Option.some_or]
    · rw [if_neg hkeyboard] at hkey
      cases hkey

theorem mouseNamed_code_ne_zero {button : MouseButton} (h : mouseNamed key = some button) :
    button.code ≠ 0 := by
  unfold mouseNamed at h
  split at h
  · cases h; decide
  · split at h
    · cases h; decide
    · split at h
      · cases h; decide
      · split at h
        · cases h; decide
        · split at h
          · cases h; decide
          · cases h

theorem parseScanCodeLiteral_ne_zero (h : parseScanCodeLiteral key = some code) : code ≠ 0 := by
  unfold parseScanCodeLiteral at h
  split at h
  · exact of_decide_eq_true (Option.filter_eq_some_iff.mp h).2
  · cases h

theorem parseBind_code_ne_zero {input : Text} (h : parseBind input resolver = .ok bind)
    (hzero : bind.code = 0) :
    input.eqIgnoreAsciiCase nullBind = true ∨ ∃ modifiers key,
      parseParts (bindParts input) .default = .ok (modifiers, key) ∧
        resolver.scanCode key = some 0 := by
  unfold parseBind at h
  split at h
  next => cases h
  next =>
    split at h
    next hnull => exact Or.inl hnull
    next =>
      obtain ⟨⟨modifiers, key⟩, hparts, hrest⟩ := except_bind_ok h
      obtain ⟨⟨_, code⟩, hresolved, hbind⟩ := except_bind_ok hrest
      cases hbind
      have hcode : code = 0 := hzero
      refine Or.inr ⟨modifiers, key, hparts, ?_⟩
      unfold resolveKey at hresolved
      split at hresolved
      next hbutton =>
        cases hresolved
        exact absurd hcode (mouseNamed_code_ne_zero hbutton)
      next =>
        split at hresolved
        next found hfound =>
          cases hresolved
          rw [hcode] at hfound
          rcases hscan : resolver.scanCode key with _ | found
          · rw [hscan, Option.none_or] at hfound
            exact absurd rfl (parseScanCodeLiteral_ne_zero hfound)
          · rw [hscan, Option.some_or] at hfound
            exact hfound
        next => cases hresolved

/-- A formatted binding parses back exactly if its key reads back and the text is neither too long
nor the null token; plain keys do, and only the null token stands for code 0. -/
theorem formatted_binds_parse_back {resolver : KeyNameResolver}
    (hresolver : resolver.ResolvesBack) :
    (∀ bind padded, bind.isBound = true → formatBind bind resolver padded ≠ nullBind →
      ∃ key, keyText bind resolver = some key ∧
        (parseBind (formatBind bind resolver padded) resolver = .ok bind ↔
          (formatBind bind resolver padded).byteLength ≤ 256 ∧
          (formatBind bind resolver padded).eqIgnoreAsciiCase nullBind = false ∧
          ReadsBack resolver bind key.asciiUppercase) ∧
        (PlainKey resolver bind → ReadsBack resolver bind key.asciiUppercase)) ∧
    ∀ input bind, parseBind input resolver = .ok bind → bind.code = 0 →
      input.eqIgnoreAsciiCase nullBind = true ∨ ∃ modifiers key,
        parseParts (bindParts input) .default = .ok (modifiers, key) ∧
          resolver.scanCode key = some 0 := by
  refine ⟨fun bind padded hbound hwritten => ?_, fun input bind => parseBind_code_ne_zero⟩
  rcases hkey : keyText bind resolver with _ | key
  · refine absurd ?_ hwritten
    unfold formatBind
    rw [if_pos hbound, hkey]
  · exact ⟨key, rfl, parseBind_formatBind_iff hbound hkey padded,
      fun hplain => hplain.readsBack hresolver hbound hkey⟩

theorem usKeyNames_resolvesBack : usKeyNames.ResolvesBack := by
  have hall : ∀ entry ∈ portableKeyNames,
      usKeyNames.scanCode (asciiUppercase entry.2.toList) = some entry.1 := by decide +kernel
  intro code name hname
  obtain ⟨entry, hfind, rfl⟩ := Option.map_eq_some_iff.mp hname
  have hcode : entry.1 = code := by simpa using List.find?_some hfind
  exact hcode ▸ hall entry (List.mem_of_find?_eq_some hfind)

theorem formatted_f1_parses_back :
    parseBind "CTRL + SHIFT + F1".toList usKeyNames = .ok ⟨false, true, true, .keyboard, 0x3B⟩ := by
  have hbound : InputBind.isBound ⟨false, true, true, .keyboard, 0x3B⟩ = true := by decide
  have hwritten : formatBind ⟨false, true, true, .keyboard, 0x3B⟩ usKeyNames true =
    "CTRL + SHIFT + F1".toList := by decide +kernel
  obtain ⟨_, _, hiff, hplain⟩ := (formatted_binds_parse_back usKeyNames_resolvesBack).1
    ⟨false, true, true, .keyboard, 0x3B⟩ true hbound (by rw [hwritten]; decide)
  rw [hwritten] at hiff
  refine hiff.mpr ⟨by decide, by decide, hplain (Or.inr ?_)⟩
  have hname : usKeyNames.keyName 0x3B = some "F1".toList := by decide +kernel
  rw [hname]
  decide

def numberPadNames : KeyNameResolver where
  scanCode name := if name = "NUM +".toList then some 0x4E else none
  keyName code := if code = 0x4E then some "Num +".toList else none

/-- Its name resolves back, but the text of the binding does not parse. -/
theorem number_pad_plus_does_not_parse : numberPadNames.ResolvesBack ∧
    InputBind.isBound ⟨false, false, false, .keyboard, 0x4E⟩ = true ∧
    formatBind ⟨false, false, false, .keyboard, 0x4E⟩ numberPadNames false ≠ nullBind ∧
    parseBind (formatBind ⟨false, false, false, .keyboard, 0x4E⟩ numberPadNames false)
      numberPadNames ≠ .ok ⟨false, false, false, .keyboard, 0x4E⟩ := by
  refine ⟨fun code name hname => ?_, by decide, by decide +kernel, by decide +kernel⟩
  unfold numberPadNames at hname
  dsimp only at hname
  split at hname
  next hcode =>
    cases hname
    rw [hcode]
    decide
  next => cases hname

end Nexus
