namespace PropFlow

def plainBool : Bool → String
  | true => "True"
  | false => "False"

-- What an analysis says about its steps.
inductive Note where
  | message (text : String)
  | accepted (name reason : String)
  | rejected (name reason : String)
  | started (root : String)
  | filesFound (count : Nat)
  | componentsFound (count : Nat)
  | followed (target : String)
  | functionDeclared (name : String)
  | variableDeclared (name : String)
  | functionExported (name : String)
  | variableExported (name : String)
  | anonymousExported
  | nameExported (name : String)
  | classDeclared (name : String)
  | misnamed (name reason : String)
  | scanned (label : String) (hasJsx : Bool) (returns : Nat)
  | componentEntered (component : String)
  | componentDone (component : String) (items : Nat)
  | classEntered (component : String)
  | methodFound (name : String)
  | hookFound (hook component : String)
  | statePair (state setter : String)
  | providerCalled (context : String)
  | providerRendered (context : String)
  | functionFound (name : String)
  | arrowFound (name : String)
  | propsEntered (component : String)
  | propDestructured (key : String)
  | propsParameter
  | propUsed (name : String)
  | propsDone (component : String) (props : List String)
  | imported (name source : String)
  | reexportFound (source : String)
  | reexported (name source : String)
  | rendered (parent child : String)
  | flowFound (parent item child prop : String)
deriving DecidableEq, Repr

def Note.text : Note → String
  | message text => text
  | accepted name reason => "✓ " ++ name ++ " identified as React component (" ++ reason ++ ")"
  | rejected name reason => "✗ " ++ name ++ " not identified as React component (" ++ reason ++ ")"
  | started root => "Starting analysis of: " ++ root
  | filesFound count => "Found " ++ toString count ++ " React files"
  | componentsFound count => "Total components found: " ++ toString count
  | followed target => "Following re-export to: " ++ target
  | functionDeclared name => "Found function declaration: " ++ name
  | variableDeclared name => "Found variable declaration: " ++ name
  | functionExported name => "Found exported function: " ++ name
  | variableExported name => "Found exported variable: " ++ name
  | anonymousExported => "Found default export: anonymous function"
  | nameExported name => "Found default export: " ++ name
  | classDeclared name => "Found class declaration: " ++ name
  | misnamed name reason => "  " ++ name ++ " rejected: " ++ reason
  | scanned label hasJsx returns =>
    "  " ++ label ++ ": hasJSX=" ++ plainBool hasJsx ++ ", returnStatements=" ++ toString returns
  | componentEntered component => "Analyzing component: " ++ component
  | componentDone component items =>
    "Component " ++ component ++ " analysis complete: " ++ toString items ++ " items found"
  | classEntered component => "Analyzing class component: " ++ component
  | methodFound name => "Found class method: " ++ name
  | hookFound hook component => "Found " ++ hook ++ " in " ++ component
  | statePair state setter => "  State: " ++ state ++ ", Setter: " ++ setter
  | providerCalled context => "Found Context Provider: " ++ context
  | providerRendered context => "Found Context Provider element: " ++ context
  | functionFound name => "Found function: " ++ name
  | arrowFound name => "Found arrow function: " ++ name
  | propsEntered component => "Extracting props for: " ++ component
  | propDestructured key => "  Found destructured prop: " ++ key
  | propsParameter => "  Found props parameter, looking for props.* usage"
  | propUsed name => "  Found prop usage: props." ++ name
  | propsDone component props =>
    "Extracted " ++ toString props.length ++ " props for " ++ component
      ++ ": [" ++ ", ".intercalate props ++ "]"
  | imported name source => "  Import: " ++ name ++ " from " ++ source
  | reexportFound source => "Found re-export from: " ++ source
  | reexported name source => "  Re-export: " ++ name ++ " from " ++ source
  | rendered parent child => "Found JSX: " ++ parent ++ " renders " ++ child
  | flowFound parent item child prop =>
    "  Flow: " ++ parent ++ "." ++ item ++ " → " ++ child ++ "." ++ prop

end PropFlow
