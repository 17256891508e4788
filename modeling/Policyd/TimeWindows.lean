import Policyd.RuleScan

namespace Policyd

/-!
# Time windows

A window is written as two times of day, interned into a table shared by all
rules and tested by one bit.  The bit is set exactly when the local time lies
in the window that was read, also across midnight.  A text `HH:MM` is read as
it is written, but whatever follows the digits of a part is ignored, and a part
without digits reads zero.
-/

/-- An hour or a minute: one or two digits up to a limit. -/
structure ClockPart (limit : Nat) (text : Str) : Prop where
  nonempty : text ≠ []
  short : text.length ≤ 2
  digits : text.all Char.isDigit = true
  inRange : numeralValue text ≤ limit

/-- A text that is an hour, a colon and a minute. -/
def ClockText (text : Str) (minutes : Nat) : Prop :=
  ∃ hour minute,
    text = hour ++ ':' :: minute ∧ ClockPart 23 hour ∧
      ClockPart 59 minute ∧
      minutes = numeralValue hour * 60 + numeralValue minute

/-- A field that holds a time of day. -/
def ClockField (field : Option Node) (minutes : Nat) : Prop :=
  ∃ line text, field = some (.scalar line text) ∧ ClockText text minutes

variable {text : Str} {minutes : Nat} {window : TimeWindow}

theorem ClockPart.looseInteger_eq
    {limit : Nat} (part : ClockPart limit text) (small : limit < 100) :
    looseInteger text = numeralValue text := by
  have inRange := part.inRange
  rw [looseInteger, cString_digits part.digits,
    strtoll_digits part.nonempty part.digits (detectBase_ten text)]
  dsimp only
  omega

theorem ClockText.timeOfDay (clock : ClockText text minutes) :
    timeOfDayOfText text = some minutes := by
  obtain ⟨hour, minute, rfl, hourPart, minutePart, rfl⟩ := clock
  have noColon : ':' ∉ hour := by
    intro member
    exact absurd (List.all_eq_true.mp hourPart.digits _ member) (by decide)
  have hourRange := hourPart.inRange
  have minuteRange := minutePart.inRange
  have inRange :
      ¬ ((numeralValue hour : Int) < 0 ∨ 23 < (numeralValue hour : Int) ∨
        (numeralValue minute : Int) < 0 ∨
          59 < (numeralValue minute : Int)) := by
    omega
  unfold timeOfDayOfText
  rw [Str.findChar_append_cons noColon minute]
  simp only [List.take_left, List.drop_length_add_append, List.drop_succ_cons,
    List.drop_zero, hourPart.looseInteger_eq (by decide),
    minutePart.looseInteger_eq (by decide), if_neg inRange]
  congr 1

theorem ClockText.digit_or_colon (clock : ClockText text minutes) :
    (text.all fun char => char.isDigit || char == ':') = true := by
  obtain ⟨hour, minute, rfl, hourPart, minutePart, _⟩ := clock
  have digits : ∀ part : Str,
      part.all Char.isDigit = true →
        (part.all fun char => char.isDigit || char == ':') = true := by
    intro part all
    rw [List.all_eq_true] at all ⊢
    intro char member
    rw [all char member, Bool.true_or]
  rw [List.all_append, List.all_cons, digits hour hourPart.digits,
    digits minute minutePart.digits]
  rfl

theorem ClockField.asTimeOfDay
    {field : Option Node} (clock : ClockField field minutes) :
    field.bind Node.asTimeOfDay = some minutes := by
  obtain ⟨line, text, rfl, isClock⟩ := clock
  exact isClock.timeOfDay

theorem TimeWindow.contains_iff (startInside : window.startMinute < 1440)
    (endInside : window.endMinute < 1440) (minute : Nat) :
    window.contains (minute % 1440) = true ↔
      ((minute : Int) - window.startMinute) % 1440 <
        ((window.endMinute : Int) - window.startMinute) % 1440 := by
  unfold contains
  split
  · rw [Bool.and_eq_true, decide_eq_true_iff, decide_eq_true_iff]
    omega
  · rw [Bool.or_eq_true, decide_eq_true_iff, decide_eq_true_iff]
    omega

/-- The rules of an identifier all test a bit of the feature word. -/
structure TestsBit (ruleSet : RuleSet) (id : UInt32) (position : Nat) :
    Prop where
  compiled : ∃ rule ∈ ruleSet.rules, rule.id = id
  tested :
    ∀ rule ∈ ruleSet.rules,
      rule.id = id → rule.matchMask.getLsbD position = true

/-- A bit that is set exactly when the local time lies in a window. -/
def WindowBit (ruleSet : RuleSet) (window : TimeWindow) (position : Nat) :
    Prop :=
  ∀ request record now,
    (buildFeatures ruleSet request record now).getLsbD position = true ↔
      ((request.localMinute.toNat : Int) - window.startMinute) % 1440 <
        ((window.endMinute : Int) - window.startMinute) % 1440

/-- A rule tests the window that one of its conditions writes. -/
def WindowAsWritten (ruleSet : RuleSet) (item condition : Node) : Prop :=
  ∃ id window position,
    ruleIdOf item = some id ∧
      ClockField (condition.find "start".toList) window.startMinute ∧
      ClockField (condition.find "end".toList) window.endMinute ∧
      TestsBit ruleSet id position ∧ WindowBit ruleSet window position

theorem windowOf_eq_some {node : Node} (read : windowOf node = some window) :
    (node.find "start".toList).bind Node.asTimeOfDay =
        some window.startMinute ∧
      (node.find "end".toList).bind Node.asTimeOfDay =
        some window.endMinute := by
  simp only [windowOf, Option.bind_eq_bind, Option.bind_eq_some_iff] at read
  obtain ⟨startNode, startFound, startMinute, startRead, endNode, endFound,
    endMinute, endRead, shape⟩ := read
  cases shape
  rw [startFound, endFound]
  exact ⟨startRead, endRead⟩

theorem asTimeOfDay_lt_of_bind
    {field : Option Node} (read : field.bind Node.asTimeOfDay = some minutes) :
    minutes < 1440 := by
  obtain ⟨node, _, nodeRead⟩ := Option.bind_eq_some_iff.mp read
  exact Node.asTimeOfDay_lt nodeRead

theorem exists_window_of_readCondition
    {key : Str} {node : Node} {condition : Condition}
    (isWindow : key = "time_between".toList ∨ key = "not_time_between".toList)
    (read : readCondition key node = some condition) :
    ∃ window want,
      windowOf node = some window ∧
        condition = .require (.window window) want := by
  have between :
      readCondition "time_between".toList node =
        (windowOf node).map fun window =>
          .require (.window window) true := rfl
  have notBetween :
      readCondition "not_time_between".toList node =
        (windowOf node).map fun window =>
          .require (.window window) false := rfl
  rcases isWindow with rfl | rfl
  · rw [between] at read
    obtain ⟨window, windowRead, rfl⟩ := Option.map_eq_some_iff.mp read
    exact ⟨window, true, windowRead, rfl⟩
  · rw [notBetween] at read
    obtain ⟨window, windowRead, rfl⟩ := Option.map_eq_some_iff.mp read
    exact ⟨window, false, windowRead, rfl⟩

section

variable {ruleSet : RuleSet} {sources : List SourceRule} {source : SourceRule}
    (compiledFrom : CompiledFrom ruleSet sources) (member : source ∈ sources)

include compiledFrom member

theorem CompiledFrom.windowBit {want : Bool}
    (required : Condition.require (.window window) want ∈ source.conditions)
    (startInside : window.startMinute < 1440)
    (endInside : window.endMinute < 1440) :
    WindowBit ruleSet window
      ((Feature.window window).position
        ⟨ruleSet.toPredicateTables, ruleSet.dnnNames⟩) := by
  intro request record now
  have fit : (Situation.mk ruleSet request record now).bits.Fit :=
    compiledFrom.fit
  have bit :=
    Situation.getLsbD_features fit
      (compiledFrom.known member required _ (List.mem_singleton_self _))
  rw [← window.contains_iff startInside endInside]
  exact Bool.eq_iff_iff.mp bit

/-- A condition of an accepted rule that writes a window. -/
theorem CompiledFrom.windowAsWritten_iff {redirects : Redirects} {item : Node}
    (itemRead : readRule redirects item = some source)
    {condition : Node} {want : Bool}
    (read : windowOf condition = some window)
    (required : Condition.require (.window window) want ∈ source.conditions) :
    WindowAsWritten ruleSet item condition ↔
      (∃ minutes, ClockField (condition.find "start".toList) minutes) ∧
        ∃ minutes, ClockField (condition.find "end".toList) minutes := by
  constructor
  · rintro ⟨_, written, _, _, startClock, endClock, _⟩
    exact ⟨⟨_, startClock⟩, _, endClock⟩
  · rintro ⟨⟨startMinutes, startClock⟩, endMinutes, endClock⟩
    obtain ⟨startRead, endRead⟩ := windowOf_eq_some read
    cases startClock.asTimeOfDay.symm.trans startRead
    cases endClock.asTimeOfDay.symm.trans endRead
    obtain ⟨_, idRead, _⟩ := readRule_eq_some_iff.mp itemRead
    refine ⟨source.id, window, _, idRead, startClock, endClock,
      ⟨compiledFrom.exists_rule_of_mem member, ?_⟩,
      compiledFrom.windowBit member required
        (asTimeOfDay_lt_of_bind startRead)
        (asTimeOfDay_lt_of_bind endRead)⟩
    intro rule ruleMember sameId
    exact compiledFrom.matchMask_of_require member required ruleMember sameId

end

/--
A time window of a rule that compiled means what is written exactly when both
of its ends are written as an hour, a colon and a minute.
-/
theorem window_as_written_iff_clock_texts
    {files : Str → Option Str}
    {text : Str}
    {version : UInt32}
    {ruleSet : RuleSet}
    (accepted : (compileRules files text version).ruleSet = some ruleSet) :
    ∃ root line items,
      Yaml.parse text = .ok root ∧
        root.find "rules".toList = some (.seq line items) ∧
        ∀ item ∈ items,
          ∃ fields,
            whenFields item = some fields ∧
              ∀ key condition,
                (key, condition) ∈ fields →
                  key = "time_between".toList ∨
                      key = "not_time_between".toList →
                    (WindowAsWritten ruleSet item condition ↔
                      (∃ minutes,
                        ClockField (condition.find "start".toList)
                          minutes) ∧
                      ∃ minutes,
                        ClockField (condition.find "end".toList)
                          minutes) := by
  obtain ⟨root, sources, parsed, read, compiledFrom⟩ :=
    compileRules_compiledFrom accepted
  obtain ⟨line, items, found, itemsRead⟩ := exists_items_of_sourceRules read
  refine ⟨root, line, items, parsed, found, ?_⟩
  intro item itemMember
  obtain ⟨source, member, itemRead⟩ :=
    exists_mem_right_of_forall₂ (mapM_eq_some_iff.mp itemsRead) itemMember
  obtain ⟨_, _, _, body⟩ := readRule_eq_some_iff.mp itemRead
  obtain ⟨fields, fieldsRead, conditionsRead⟩ :=
    Option.bind_eq_some_iff.mp body.conditions
  refine ⟨fields, fieldsRead, ?_⟩
  intro key condition fieldMember isWindow
  obtain ⟨compiled, compiledMember, conditionRead⟩ :=
    exists_mem_right_of_forall₂ (mapM_eq_some_iff.mp conditionsRead)
      fieldMember
  obtain ⟨window, want, windowRead, rfl⟩ :=
    exists_window_of_readCondition isWindow conditionRead
  exact compiledFrom.windowAsWritten_iff member itemRead windowRead
    compiledMember

/-- A document whose only rule asks for a time window. -/
def windowFile (startText endText : String) : Str :=
  ("dnns: [internet]\nplans: [\x7bname: basic\x7d]\nrules:\n" ++
    "  - id: 1\n    priority: 5\n    when:\n      time_between:\n" ++
    "        start: " ++ startText ++ "\n        end: " ++ endText ++
    "\n    action: \x7bdecision: allow\x7d\n").toList

/-- The only rule of a document and its only condition. -/
def onlyCondition (root : Node) : Option (Node × Str × Node) :=
  match root.find "rules".toList with
  | some (.seq _ [item]) =>
    match whenFields item with
    | some [(key, condition)] => some (item, key, condition)
    | _ => none
  | _ => none

theorem exists_of_onlyCondition {root item condition : Node} {key : Str}
    (only : onlyCondition root = some (item, key, condition)) :
    ∃ line,
      root.find "rules".toList = some (.seq line [item]) ∧
        whenFields item = some [(key, condition)] := by
  unfold onlyCondition at only
  split at only
  next line other found =>
    split at only
    next otherKey otherCondition fields =>
      cases only
      exact ⟨line, found, fields⟩
    · cases only
  · cases only

/-- Test the two times and the interned windows of a document. -/
def testWindow
    (startText endText : String) (windows : List TimeWindow)
    (ruleSet : RuleSet)
    (root : Node) : Bool :=
  ruleSet.timeWindows == windows &&
    match onlyCondition root with
    | some (_, key, condition) =>
      key == "time_between".toList &&
        condition.find "start".toList ==
          some (.scalar 8 startText.toList) &&
        condition.find "end".toList == some (.scalar 9 endText.toList)
    | none => false

/-- A window across midnight means what is written. -/
theorem night_window_as_written :
    ∃ ruleSet root item condition,
      (compileRules (fun _ => none) (windowFile "22:00" "\"6:05\"")
          1).ruleSet = some ruleSet ∧
        Yaml.parse (windowFile "22:00" "\"6:05\"") = .ok root ∧
        onlyCondition root =
          some (item, "time_between".toList, condition) ∧
        ruleSet.timeWindows = [⟨1320, 365⟩] ∧
        WindowAsWritten ruleSet item condition := by
  obtain ⟨ruleSet, root, accepted, parsed, passed⟩ :=
    exists_of_testDocument (windowFile "22:00" "\"6:05\"")
      (testWindow "22:00" "6:05" [⟨1320, 365⟩]) (by decide +kernel)
  rw [testWindow, Bool.and_eq_true, beq_iff_eq] at passed
  obtain ⟨windows, tested⟩ := passed
  split at tested
  next item key condition only =>
    simp only [Bool.and_eq_true, beq_iff_eq] at tested
    obtain ⟨⟨rfl, startFound⟩, endFound⟩ := tested
    refine ⟨ruleSet, root, item, condition, accepted, parsed, only, windows,
      ?_⟩
    obtain ⟨line, found, fieldsRead⟩ := exists_of_onlyCondition only
    obtain ⟨_, _, _, otherParsed, otherFound, asWritten⟩ :=
      window_as_written_iff_clock_texts accepted
    cases parsed.symm.trans otherParsed
    cases found.symm.trans otherFound
    obtain ⟨fields, otherRead, fieldsWritten⟩ :=
      asWritten item (List.mem_singleton_self _)
    cases fieldsRead.symm.trans otherRead
    refine (fieldsWritten _ condition (List.mem_singleton_self _)
      (.inl rfl)).mpr ⟨?_, ?_⟩
    · exact ⟨1320, 8, _, startFound, "22".toList, "00".toList, rfl,
        ⟨by decide, by decide, by decide, by decide +kernel⟩,
        ⟨by decide, by decide, by decide, by decide +kernel⟩,
        by decide +kernel⟩
    · exact ⟨365, 9, _, endFound, "6".toList, "05".toList, rfl,
        ⟨by decide, by decide, by decide, by decide +kernel⟩,
        ⟨by decide, by decide, by decide, by decide +kernel⟩,
        by decide +kernel⟩
  · cases tested

/-- A time with a suffix is accepted, and its suffix is ignored. -/
theorem afternoon_suffix_ignored :
    ∃ ruleSet root item condition,
      (compileRules (fun _ => none) (windowFile "10:00pm" "23:00")
          1).ruleSet = some ruleSet ∧
        Yaml.parse (windowFile "10:00pm" "23:00") = .ok root ∧
        onlyCondition root =
          some (item, "time_between".toList, condition) ∧
        condition.find "start".toList =
          some (.scalar 8 "10:00pm".toList) ∧
        ruleSet.timeWindows = [⟨600, 1380⟩] ∧
        ¬ WindowAsWritten ruleSet item condition := by
  obtain ⟨ruleSet, root, accepted, parsed, passed⟩ :=
    exists_of_testDocument (windowFile "10:00pm" "23:00")
      (testWindow "10:00pm" "23:00" [⟨600, 1380⟩]) (by decide +kernel)
  rw [testWindow, Bool.and_eq_true, beq_iff_eq] at passed
  obtain ⟨windows, tested⟩ := passed
  split at tested
  next item key condition only =>
    simp only [Bool.and_eq_true, beq_iff_eq] at tested
    obtain ⟨⟨rfl, startFound⟩, _⟩ := tested
    refine ⟨ruleSet, root, item, condition, accepted, parsed, only,
      startFound, windows, ?_⟩
    rintro ⟨_, window, _, _, ⟨line, text, written, clock⟩, _⟩
    cases startFound.symm.trans written
    exact absurd clock.digit_or_colon (by decide)
  · cases tested

end Policyd
