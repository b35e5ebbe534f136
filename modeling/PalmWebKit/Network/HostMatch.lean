import PalmWebKit.Text.StdString

/-!
# Matching certificate names against a host

`CurlHandle` accepts a certificate for a host when one of its common names or
DNS alternative names matches.  The strict match goes label by label from the
right; the relaxed one drops leading wildcard labels and searches for the rest
in the host.  The rules they document are stated beside them and compared with
what the code accepts.
-/

namespace PalmWebKit
namespace Network

open StdString

/-! ## The code -/

def nameFragmentMatched (masterFragment candidateFragment : StdString)
    (exactMatchOnly : Bool) : Bool :=
  if masterFragment.length = 0 ∧ candidateFragment.length = 0 then true
  else if star ∈ candidateFragment then false
  else if masterFragment = [star] ∧ !exactMatchOnly then true
  else
    match find masterFragment star 0 with
    | none => decide (masterFragment = candidateFragment)
    | some frontWild =>
      if exactMatchOnly then false
      else if some frontWild ≠
          rfind masterFragment star (masterFragment.length - 1) then
        false
      else if frontWild ≠ 0 ∧ frontWild ≠ masterFragment.length - 1 then false
      else if frontWild = 0 then
        let realsegment := masterFragment.drop 1
        match findString realsegment candidateFragment with
        | none => false
        | some position => !decide (position < candidateFragment.length - realsegment.length)
      else
        let realsegment := substr masterFragment 0 (masterFragment.length - 1)
        match findString realsegment candidateFragment with
        | none => false
        | some position => decide (position = 0)

/-- The loop of the strict match.  `endCName` and `endHName` are the ends of
the segments to compare next. -/
def strictLoop (cname hname : StdString) (endCName endHName : Nat) (firstSegment : Bool) : Bool :=
  match _foundCName : rfind cname dot endCName, rfind hname dot endHName with
  | none, none =>
    nameFragmentMatched (tolower (substr cname 0 (endCName + 1)))
      (tolower (substr hname 0 (endHName + 1))) firstSegment
  | some dotCName, some dotHName =>
    if dotCName = endCName ∨ dotHName = endHName then false
    else if !nameFragmentMatched
        (tolower (substr cname (dotCName + 1) (endCName - dotCName)))
        (tolower (substr hname (dotHName + 1) (endHName - dotHName)))
        firstSegment then
      false
    else if dotCName + 1 < 2 ∧ dotHName + 1 < 2 then true
    else if dotCName + 1 < 2 ∨ dotHName + 1 < 2 then false
    else
      strictLoop cname hname (dotCName + 1 - 2) (dotHName + 1 - 2) false
  | _, _ => false
termination_by endCName
decreasing_by
  have := (rfind_eq_some _foundCName).1
  omega

def sslVerificationCNameToHostnameMatchStrict (cname hname : StdString) : Bool :=
  strictLoop cname hname (cname.length - 1) (hname.length - 1) true

/-- The loop over the leading labels of a name: the position after the last
one that contains a wildcard.  Every round moves it past a dot. -/
def wildcardLoop (cnameDomain : StdString) : Nat → Nat → Nat
  | 0, prev => prev
  | rounds + 1, prev =>
    match find cnameDomain dot prev with
    | none => prev
    | some position =>
      if star ∉ substr cnameDomain prev (position - prev) then prev
      else if position + 1 ≥ cnameDomain.length then position + 1
      else wildcardLoop cnameDomain rounds (position + 1)

/-- The part of a lower-case name that the relaxed match searches for. -/
def pureName (cnameDomain : StdString) : StdString :=
  let prev := wildcardLoop cnameDomain cnameDomain.length 0
  if prev ≥ cnameDomain.length then [] else cnameDomain.drop prev

def sslVerificationCNameToHostnameMatchRelaxed (cname fqdnHost : StdString) : Bool :=
  let cnameDomain := pureName (tolower cname)
  let fqdn := tolower fqdnHost
  match findString cnameDomain fqdn with
  | none => false
  | some position => !decide (fqdn.length - cnameDomain.length < position)

def sslVerificationCNameToHostnameMatch (sslStrictNameChecking : Bool)
    (cname hostname : StdString) : Bool :=
  if cname.isEmpty || hostname.isEmpty then false
  else if sslStrictNameChecking then
    sslVerificationCNameToHostnameMatchStrict cname hostname
  else
    sslVerificationCNameToHostnameMatchRelaxed cname hostname

/-- An entry of the `subjectAltName` extension. -/
structure GeneralName where
  /-- The type is `GEN_DNS`. -/
  isDns : Bool
  /-- The bytes that `ASN1_STRING_to_UTF8` yields, `none` when it fails. -/
  utf8 : Option StdString
  deriving DecidableEq, Repr

/-- What the host match reads of a certificate. -/
structure Certificate where
  commonNames : List StdString
  /-- Empty also for a certificate without the extension. -/
  altNames : List GeneralName
  deriving DecidableEq, Repr

/-- The match of one alternative name.  The bytes are read as a C string. -/
def altNameMatched (sslStrictNameChecking : Bool) (host : StdString) (check : GeneralName) : Bool :=
  check.isDns &&
    match check.utf8 with
    | none => false
    | some text =>
      decide (0 < text.length) &&
        sslVerificationCNameToHostnameMatch sslStrictNameChecking
          (tolower (ofCString text)) (tolower host)

def isCertValidForUrl (sslStrictNameChecking : Bool) (cert : Certificate)
    (host : StdString) : Bool :=
  cert.commonNames.any (fun name =>
      sslVerificationCNameToHostnameMatch sslStrictNameChecking name host) ||
    cert.altNames.any (altNameMatched sslStrictNameChecking host)

/-! ## The documented rules -/

/-- The labels of a name. -/
def labels (name : StdString) : List StdString := name.splitOn dot

/-- A label matches itself; where wildcards are allowed, a single `*` at its
front or its back stands for any text. -/
def LabelMatches (exactMatchOnly : Bool) (pattern label : StdString) : Prop :=
  pattern = label ∨ exactMatchOnly = false ∧ ∃ segment, star ∉ segment ∧
        ((pattern = star :: segment ∧ segment <:+ label) ∨
          (pattern = segment ++ [star] ∧ segment <+: label))

/-- Equally many labels, each matching its counterpart; the last one is
compared with its own strictness. -/
def LabelsMatch (lastExact : Bool) (name host : StdString) : Prop :=
  ∃ names lastName hosts lastHost,
    labels name = names ++ [lastName] ∧ labels host = hosts ++ [lastHost] ∧
      LabelMatches lastExact lastName lastHost ∧
      List.Forall₂ (LabelMatches false) names hosts

/-- The strict rule: label by label, without a wildcard in the last one. -/
def StrictRule (name host : StdString) : Prop := LabelsMatch true (tolower name) (tolower host)

/-- Removing the leading labels that contain a wildcard. -/
inductive Strips : StdString → StdString → Prop
  | keep {name : StdString}
      (plain : ∀ label rest, name = label ++ dot :: rest → dot ∉ label → star ∉ label) :
      Strips name name
  | remove {label rest stripped : StdString}
      (isLabel : dot ∉ label)
      (wild : star ∈ label)
      (next : Strips rest stripped) : Strips (label ++ dot :: rest) stripped

/-- The relaxed rule: without its leading wildcard labels the name is not
empty and is the host or a suffix of it behind a dot. -/
def RelaxedRule (name host : StdString) : Prop :=
  ∃ stripped, Strips (tolower name) stripped ∧ stripped ≠ [] ∧
    (stripped = tolower host ∨ dot :: stripped <:+ tolower host)

/-- The rule of the setting. -/
def Rule (sslStrictNameChecking : Bool) (name host : StdString) : Prop :=
  if sslStrictNameChecking then StrictRule name host
  else RelaxedRule name host

/-- The DNS alternative names of a certificate at their full length. -/
def Certificate.dnsNames (cert : Certificate) : List StdString :=
  cert.altNames.filterMap fun check => if check.isDns then check.utf8 else none

/-- The names that a certificate lists. -/
def Certificate.names (cert : Certificate) : List StdString := cert.commonNames ++ cert.dnsNames

/-! ## The strict match -/

/-- A wildcard that is found from both sides is the only one. -/
theorem single_wildcard {fragment : StdString} {position : Nat}
    (first : find fragment star 0 = some position)
    (last : rfind fragment star (fragment.length - 1) = some position) :
    ∃ before after, fragment = before ++ star :: after ∧
      before.length = position ∧ star ∉ before ∧ star ∉ after := by
  obtain ⟨whole, after⟩ := take_eq_of_rfind last
  rw [List.take_of_length_le (by omega)] at whole
  obtain ⟨-, notBefore, inside⟩ := drop_eq_of_find first
  refine ⟨_, _, whole, List.length_take_of_le inside.le, ?_, after⟩
  simpa [substr] using notBefore

theorem nameFragmentMatched_sound {masterFragment candidateFragment : StdString}
    {exactMatchOnly : Bool}
    (isMatched : nameFragmentMatched masterFragment candidateFragment
      exactMatchOnly = true) : LabelMatches exactMatchOnly masterFragment candidateFragment := by
  unfold nameFragmentMatched at isMatched
  split at isMatched
  next bothEmpty =>
    left
    rw [List.length_eq_zero_iff.1 bothEmpty.1, List.length_eq_zero_iff.1 bothEmpty.2]
  split at isMatched
  next => cases isMatched
  split at isMatched
  next wild =>
    obtain ⟨rfl, notExact⟩ := wild
    exact Or.inr ⟨by simpa using notExact, [], List.not_mem_nil, Or.inl ⟨rfl, List.nil_suffix⟩⟩
  split at isMatched
  next => exact .inl (by simpa using isMatched)
  next frontWild isFirst =>
    split at isMatched
    next => cases isMatched
    next notExact =>
    split at isMatched
    next => cases isMatched
    next isLast =>
    obtain ⟨before, after, rfl, position, notBefore, notAfter⟩ :=
      single_wildcard isFirst (not_not.1 isLast).symm
    refine .inr ⟨by simpa using notExact, ?_⟩
    split at isMatched
    next => cases isMatched
    next outer =>
    split at isMatched
    next front =>
      -- The segment is found where it ends the candidate.
      have empty : before = [] := List.length_eq_zero_iff.1 (position.trans front)
      subst empty
      simp only [List.nil_append, List.drop_succ_cons, List.drop_zero] at isMatched
      split at isMatched
      next => cases isMatched
      next found isFound =>
        refine ⟨after, notAfter, .inl ⟨rfl, ?_⟩⟩
        have isPrefix := findString_isPrefix isFound
        have bound : candidateFragment.length - after.length ≤ found := by simpa using isMatched
        have long := isPrefix.length_le
        rw [List.length_drop] at long
        have whole := isPrefix.eq_of_length (by
          rw [List.length_drop]
          omega)
        rw [whole]
        exact List.drop_suffix _ _
    next notFront =>
      have back : frontWild = (before ++ star :: after).length - 1 := by
        by_contra notBack
        exact outer ⟨notFront, notBack⟩
      have empty : after = [] := by
        rw [List.length_append, List.length_cons] at back
        exact List.length_eq_zero_iff.1 (by omega)
      subst empty
      have segment : substr (before ++ [star]) 0 ((before ++ [star]).length - 1) =
            before := by
        simp [substr]
      simp only [segment] at isMatched
      split at isMatched
      next => cases isMatched
      next found isFound =>
        have atFront : found = 0 := by simpa using isMatched
        subst atFront
        exact ⟨before, notBefore, .inr ⟨rfl, findString_isPrefix isFound⟩⟩

/-- The labels of a name cut at a dot with only one label behind it. -/
theorem labels_append_dot (front : StdString) {label : StdString} (isLabel : dot ∉ label) :
    labels (front ++ dot :: label) = labels front ++ [label] := by
  rw [labels, List.splitOn_append_cons_self, List.splitOn_eq_singleton isLabel]
  rfl

variable {name : StdString}

/-- The last label of a part of a name and the labels before it. -/
theorem labels_tolower_take {pos found : Nat} (isFound : rfind name dot pos = some found) :
    labels (tolower (name.take (pos + 1))) = labels (tolower (name.take found)) ++
        [tolower (substr name (found + 1) (pos - found))] := by
  obtain ⟨whole, isLabel⟩ := take_eq_of_rfind isFound
  rw [whole, tolower_append, tolower_dot_cons, labels_append_dot _ (by simpa using isLabel)]

theorem labels_tolower_of_not_mem {pos : Nat} (missing : rfind name dot pos = none) :
    labels (tolower (name.take (pos + 1))) =
      [tolower (substr name 0 (pos + 1))] := by
  rw [labels, List.splitOn_eq_singleton
    (by simpa using not_mem_take_of_rfind missing)]
  rfl

/-- One more pair of labels on the right. -/
theorem LabelsMatch.snoc {lastExact : Bool} {name host front hostFront label hostLabel : StdString}
    (frontMatch : LabelsMatch false front hostFront)
    (labelMatch : LabelMatches lastExact label hostLabel)
    (nameLabels : labels name = labels front ++ [label])
    (hostLabels : labels host = labels hostFront ++ [hostLabel]) :
    LabelsMatch lastExact name host := by
  obtain ⟨names, lastName, hosts, lastHost, frontLabels, hostFrontLabels,
    lastMatch, others⟩ := frontMatch
  refine ⟨_, _, _, _, nameLabels, hostLabels, labelMatch, ?_⟩
  rw [frontLabels, hostFrontLabels]
  exact List.rel_append others (List.Forall₂.cons lastMatch List.Forall₂.nil)

theorem strictLoop_sound (cname hname : StdString) (endCName endHName : Nat) (firstSegment : Bool)
    (isMatched : strictLoop cname hname endCName endHName firstSegment = true) :
    LabelsMatch firstSegment (tolower (cname.take (endCName + 1)))
      (tolower (hname.take (endHName + 1))) := by
  fun_induction strictLoop with
  | case1 endCName endHName firstSegment foundCName foundHName =>
    exact ⟨[], _, [], _, labels_tolower_of_not_mem foundCName, labels_tolower_of_not_mem foundHName,
      nameFragmentMatched_sound isMatched, List.Forall₂.nil⟩
  | case2 => cases isMatched
  | case3 => cases isMatched
  | case4 endCName endHName firstSegment dotCName dotHName foundCName
      foundHName _ fragments atStart =>
      -- Both names begin with a dot.
      have frontC : dotCName = 0 := by omega
      have frontH : dotHName = 0 := by omega
      subst frontC
      subst frontH
      have emptyLabels : LabelsMatch false [] [] :=
        ⟨[], [], [], [], rfl, rfl, .inl rfl, List.Forall₂.nil⟩
      exact emptyLabels.snoc
        (nameFragmentMatched_sound (by simpa using fragments))
        (labels_tolower_take foundCName) (labels_tolower_take foundHName)
  | case5 => cases isMatched
  | case6 endCName endHName firstSegment dotCName dotHName foundCName
      foundHName _ fragments _ notShort ih =>
      have earlier := ih isMatched
      have stepC : dotCName + 1 - 2 + 1 = dotCName := by omega
      have stepH : dotHName + 1 - 2 + 1 = dotHName := by omega
      rw [stepC, stepH] at earlier
      exact earlier.snoc (nameFragmentMatched_sound (by simpa using fragments))
        (labels_tolower_take foundCName) (labels_tolower_take foundHName)
  | case7 => cases isMatched

theorem sslVerificationCNameToHostnameMatchStrict_sound {cname hname : StdString}
    (isMatched : sslVerificationCNameToHostnameMatchStrict cname hname = true) :
    StrictRule cname hname := by
  have whole := strictLoop_sound _ _ _ _ _ isMatched
  rwa [List.take_of_length_le (by omega), List.take_of_length_le (by omega)]
    at whole

/-! ## The relaxed match -/

theorem Strips.unique {name first second : StdString} (isFirst : Strips name first)
    (isSecond : Strips name second) : first = second := by
  induction isFirst with
  | keep plain =>
    cases isSecond with
    | keep => rfl
    | remove isLabel wild => exact absurd wild (plain _ _ rfl isLabel)
  | @remove label rest stripped isLabel wild next ih =>
    generalize whole : label ++ dot :: rest = name at isSecond
    cases isSecond with
    | keep plain => exact absurd wild (plain label rest whole.symm isLabel)
    | remove isLabel' wild' next' =>
      obtain ⟨rfl, rfl⟩ := append_cons_inj whole isLabel isLabel'
      exact ih next'

theorem Strips.of_not_mem (oneLabel : dot ∉ name) : Strips name name := by
  refine .keep fun label rest whole _ => ?_
  rw [whole] at oneLabel
  simp at oneLabel

/-- The loop over the leading labels removes the wildcard labels from the
position it starts at. -/
theorem strips_wildcardLoop (name : StdString) {rounds prev : Nat}
    (enough : name.length ≤ prev + rounds) :
    Strips (name.drop prev) (name.drop (wildcardLoop name rounds prev)) := by
  induction rounds generalizing prev with
  | zero =>
    refine .of_not_mem ?_
    rw [List.drop_of_length_le (by omega)]
    exact List.not_mem_nil
  | succ rounds ih =>
    rw [wildcardLoop]
    cases found : find name dot prev with
    | none => exact .of_not_mem (not_mem_drop_of_find found)
    | some position =>
      obtain ⟨whole, isLabel, inside⟩ := drop_eq_of_find found
      simp only
      split_ifs with wild atEnd
      · rw [whole]
        refine .remove isLabel wild (.of_not_mem ?_)
        rw [List.drop_of_length_le atEnd]
        exact List.not_mem_nil
      · have after : prev ≤ position := by
          obtain ⟨offset, -, same⟩ := Option.map_eq_some_iff.1 found
          omega
        rw [whole]
        exact .remove isLabel wild (ih (by omega))
      · refine .keep fun label rest split isLabel' => ?_
        rw [whole] at split
        rw [← (append_cons_inj split isLabel isLabel').1]
        exact wild

theorem strips_pureName (name : StdString) : Strips name (pureName name) := by
  have stripped : Strips (name.drop 0)
      (name.drop (wildcardLoop name name.length 0)) := strips_wildcardLoop name (by omega)
  unfold pureName
  simp only
  split_ifs with empty
  · rwa [List.drop_of_length_le empty] at stripped
  · exact stripped

theorem relaxedRule_iff (name host : StdString) :
    RelaxedRule name host ↔ pureName (tolower name) ≠ [] ∧ (pureName (tolower name) = tolower host ∨
          dot :: pureName (tolower name) <:+ tolower host) := by
  constructor
  · rintro ⟨stripped, isStripped, suffix⟩
    rw [(strips_pureName _).unique isStripped]
    exact suffix
  · exact fun suffix => ⟨_, strips_pureName _, suffix⟩

/-- The check for an anchor at the end never fails: the relaxed match accepts
a name that occurs anywhere in the host. -/
theorem relaxed_eq_true_iff (cname host : StdString) :
    sslVerificationCNameToHostnameMatchRelaxed cname host = true ↔
      pureName (tolower cname) <:+: tolower host := by
  rw [← findString_isSome_iff]
  unfold sslVerificationCNameToHostnameMatchRelaxed
  cases found : findString (pureName (tolower cname)) (tolower host) with
  | none => simp [found]
  | some position =>
    have bound := findString_add_length_le found
    have anchored : ¬(tolower host).length - (pureName (tolower cname)).length <
          position := by
      omega
    simp [found, anchored]

/-! ## Certificates -/

/-- The name passes the search of the relaxed match although it is neither the
host nor a suffix of it behind a dot; it may be empty without its leading
wildcard labels. -/
def OnlyOccurs (name host : StdString) : Prop :=
  name ≠ [] ∧ host ≠ [] ∧ pureName (tolower name) <:+: tolower host ∧
      ¬(pureName (tolower name) ≠ [] ∧ (pureName (tolower name) = tolower host ∨
          dot :: pureName (tolower name) <:+ tolower host))

/-- A name that does not match by the rule is accepted only where it merely
occurs, in the relaxed setting. -/
theorem accepted_iff_onlyOccurs {strict : Bool} {name host : StdString}
    (unmatched : ¬Rule strict name host) :
    sslVerificationCNameToHostnameMatch strict name host = true ↔
      strict = false ∧ OnlyOccurs name host := by
  unfold sslVerificationCNameToHostnameMatch
  rw [Rule] at unmatched
  cases strict with
  | true =>
    simp only [if_true, Bool.true_eq_false, false_and, iff_false]
    intro accepted
    split_ifs at accepted
    exact unmatched (sslVerificationCNameToHostnameMatchStrict_sound accepted)
  | false =>
    rw [relaxedRule_iff] at unmatched
    simp only [Bool.false_eq_true, if_false, true_and, OnlyOccurs]
    split_ifs with empty
    · simp only [Bool.or_eq_true, List.isEmpty_iff] at empty
      simp only [false_iff]
      rintro ⟨nameNonempty, hostNonempty, -⟩
      exact empty.elim nameNonempty hostNonempty
    · simp only [Bool.or_eq_true, List.isEmpty_iff, not_or] at empty
      rw [relaxed_eq_true_iff]
      exact ⟨fun occurs => ⟨empty.1, empty.2, occurs, unmatched⟩,
        fun only => only.2.2.1⟩

@[simp] theorem rule_tolower (strict : Bool) (name host : StdString) :
    Rule strict (tolower name) (tolower host) ↔ Rule strict name host := by
  simp only [Rule, StrictRule, RelaxedRule, tolower_tolower]

@[simp] theorem onlyOccurs_tolower (name host : StdString) :
    OnlyOccurs (tolower name) (tolower host) ↔ OnlyOccurs name host := by
  simp only [OnlyOccurs, tolower_tolower, ne_eq, tolower_eq_nil]

theorem any_altNameMatched_iff (strict : Bool) (cert : Certificate) (host : StdString) :
    cert.altNames.any (altNameMatched strict host) = true ↔ ∃ name ∈ cert.dnsNames,
        sslVerificationCNameToHostnameMatch strict (tolower (ofCString name))
          (tolower host) = true := by
  simp only [List.any_eq_true, Certificate.dnsNames, List.mem_filterMap]
  constructor
  · rintro ⟨check, member, accepted⟩
    rw [altNameMatched, Bool.and_eq_true] at accepted
    obtain ⟨isDns, accepted⟩ := accepted
    cases text : check.utf8 with
    | none => simp [text] at accepted
    | some name =>
      rw [text] at accepted
      simp only [Bool.and_eq_true] at accepted
      exact ⟨name, ⟨check, member, by rw [if_pos isDns, text]⟩, accepted.2⟩
  · rintro ⟨name, ⟨check, member, isName⟩, accepted⟩
    refine ⟨check, member, ?_⟩
    split_ifs at isName with isDns
    rw [altNameMatched, isDns, isName]
    simp only [Bool.true_and, accepted, Bool.and_true, decide_eq_true_eq]
    rw [List.length_pos_iff]
    rintro rfl
    cases accepted

/-- A certificate is accepted only by a listed name that matches by the rule
of the setting. -/
def SoundFor (strict : Bool) (cert : Certificate) (host : StdString) : Prop :=
  isCertValidForUrl strict cert host = true → ∃ name ∈ cert.names, Rule strict name host

/-- A certificate lists a name that the code misreads: in the relaxed setting
one that merely occurs in the host, or an alternative name with a NUL whose
front is accepted. -/
def ListsMisread (strict : Bool) (cert : Certificate) (host : StdString) : Prop :=
  (∃ name ∈ cert.commonNames, strict = false ∧ OnlyOccurs name host) ∨ ∃ name ∈ cert.dnsNames,
      if 0 ∈ name then
        sslVerificationCNameToHostnameMatch strict (tolower (ofCString name))
          (tolower host) = true
      else
        strict = false ∧ OnlyOccurs name host

/-- When no listed name matches by the rule, a certificate is accepted exactly
through a misread name. -/
theorem isCertValidForUrl_iff_listsMisread {strict : Bool} {cert : Certificate} {host : StdString}
    (unmatched : ∀ name ∈ cert.names, ¬Rule strict name host) :
    isCertValidForUrl strict cert host = true ↔
      ListsMisread strict cert host := by
  rw [isCertValidForUrl, Bool.or_eq_true, any_altNameMatched_iff, List.any_eq_true]
  refine or_congr ?_ ?_
  · refine exists_congr fun name => and_congr_right fun member => ?_
    exact accepted_iff_onlyOccurs
      (unmatched name (List.mem_append_left _ member))
  · refine exists_congr fun name => and_congr_right fun member => ?_
    split_ifs with hasNul
    · rfl
    · rw [ofCString_eq_self hasNul, accepted_iff_onlyOccurs, onlyOccurs_tolower]
      rw [rule_tolower]
      exact unmatched name (List.mem_append_right _ member)

/-- The match is sound for a certificate and a host exactly when some listed
name does match, or none is misread. -/
theorem soundFor_iff (strict : Bool) (cert : Certificate) (host : StdString) :
    SoundFor strict cert host ↔ (∃ name ∈ cert.names, Rule strict name host) ∨
        ¬ListsMisread strict cert host := by
  by_cases someMatch : ∃ name ∈ cert.names, Rule strict name host
  · exact iff_of_true (fun _ => someMatch) (.inl someMatch)
  · have unmatched : ∀ name ∈ cert.names, ¬Rule strict name host := by
      simpa using someMatch
    rw [SoundFor, isCertValidForUrl_iff_listsMisread unmatched]
    simp only [someMatch, false_or, imp_false]

/-- A certificate for `palm.com` is accepted for `palm.com.evil.org`. -/
theorem accepted_inside_host : ¬∀ (strict : Bool) (cert : Certificate) (host : StdString),
      isCertValidForUrl strict cert host = true →
        ∃ name ∈ cert.names, Rule strict name host := by
  intro sound
  obtain ⟨name, member, rule⟩ := sound false
    { commonNames := [bytes "palm.com"], altNames := [] }
    (bytes "palm.com.evil.org") (by decide)
  cases List.mem_singleton.1 member
  simp only [Rule, Bool.false_eq_true, if_false, relaxedRule_iff] at rule
  exact absurd rule (by decide)

end Network
end PalmWebKit
